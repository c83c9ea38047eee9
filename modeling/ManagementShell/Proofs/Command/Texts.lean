import ManagementShell.Command.Reader
import ManagementShell.Proofs.Masking
import ManagementShell.Proofs.Outcome
import ManagementShell.Proofs.Text.Words

/-
This file shows that the commands and the faults that are read from a line have no character that
the line lacks.
-/

namespace ManagementShell

namespace Text

variable {c : Char}

theorem words?_lacks (fresh : Fresh c) {text : Text} {words : List Text}
    (isWords : words? text = some words) (lacks : c ∉ text) : ∀ word ∈ words, c ∉ word :=
  wordsFrom_lacks (fresh.ne (by decide)) isWords List.not_mem_nil lacks

theorem enclosed_lacks {before text after : Text} (first : c ∉ before) (lacks : c ∉ text)
    (last : c ∉ after) : c ∉ before ++ text ++ after := by
  simp only [List.mem_append, not_or]
  exact ⟨⟨first, lacks⟩, last⟩

end Text

namespace LineFault
open Text

variable {c : Char}

/-- No text that the fault quotes has the character. -/
def Lacks (c : Char) : LineFault → Prop
  | .openQuote text => c ∉ text
  | .wrongCount _ word _ _ _ => c ∉ word
  | .operatorAlone _ operator | .wrapperAlone _ operator | .unknownOperator operator => c ∉ operator
  | .findAssignment _ assignment => c ∉ assignment
  | .setForm word | .unsetForm word => c ∉ word
  | _ => True

theorem usage_lacks (fresh : Fresh c) (usage : Usage) : c ∉ usage.text := by
  cases usage <;> exact fresh.literal (by decide)

theorem countText_lacks (fresh : Fresh c) (least : Nat) (most : Option Nat) :
    c ∉ countText least most := by
  have fixed {characters : List Char} (known : areFixed characters = true) :
      c ∉ (String.ofList characters).toList := fresh.literal known
  cases most with
  | none =>
      rw [countText, List.mem_append, not_or]
      exact ⟨ofNat_lacks fresh _, fixed (by decide)⟩
  | some most =>
      rw [countText]
      split
      · exact ofNat_lacks fresh _
      · exact enclosed_lacks (ofNat_lacks fresh _) (fixed (by decide)) (ofNat_lacks fresh _)

theorem summary_lacks (fresh : Fresh c) {fault : LineFault} (lacks : fault.Lacks c) :
    c ∉ fault.summary := by
  have fixed {characters : List Char} (known : areFixed characters = true) :
      c ∉ (String.ofList characters).toList := fresh.literal known
  cases fault with
  | openQuote text =>
      exact enclosed_lacks (fixed (by decide)) lacks (fixed (by decide))
  | wrongCount usage word least most given =>
      change c ∉ word ++ (" takes " : Text) ++ countText least most ++ " arguments, " ++
        ofNat given ++ " given"
      simp only [List.mem_append, not_or]
      exact ⟨⟨⟨⟨⟨lacks, fixed (by decide)⟩, countText_lacks fresh _ _⟩,
        fixed (by decide)⟩, ofNat_lacks fresh _⟩, fixed (by decide)⟩
  | operatorAlone usage operator =>
      exact enclosed_lacks (fixed (by decide)) lacks (fixed (by decide))
  | wrapperAlone usage operator =>
      exact enclosed_lacks (fixed (by decide)) lacks (fixed (by decide))
  | findAssignment usage assignment =>
      exact enclosed_lacks (fixed (by decide)) lacks (fixed (by decide))
  | setForm word =>
      exact enclosed_lacks (fixed (by decide)) lacks (fixed (by decide))
  | unsetForm word =>
      exact enclosed_lacks (fixed (by decide)) lacks (fixed (by decide))
  | unknownOperator operator =>
      exact enclosed_lacks (fixed (by decide)) lacks (fixed (by decide))
  | _ => exact fixed (by decide)

/-- The message of a fault quotes the line and is otherwise fixed. -/
theorem message_lacks (fresh : Fresh c) {fault : LineFault} (lacks : fault.Lacks c) :
    c ∉ fault.message := by
  have middle : c ∉ ("\n  usage: " : Text) := fresh.literal (by decide)
  exact enclosed_lacks (summary_lacks fresh lacks) middle (usage_lacks fresh _)

end LineFault

namespace Command
open Text

variable {c : Char}

mutual

/-- No text of the command has the character. -/
def Lacks (c : Char) : Command → Prop
  | .batch path => c ∉ path
  | .context look inner => c ∉ look ∧ inner.Lacks c
  | .count name => c ∉ name
  | .find look name position => c ∉ look ∧ (∀ text ∈ name, c ∉ text) ∧ ∀ text ∈ position, c ∉ text
  | .findAll field name => c ∉ field ∧ c ∉ name
  | .gosub target | .goto target => c ∉ target
  | .conditional condition inner => c ∉ condition ∧ inner.Lacks c
  | .log path mode => (∀ text ∈ path, c ∉ text) ∧ ∀ text ∈ mode, c ∉ text
  | .print text => c ∉ text
  | .report fields filter => c ∉ fields ∧ ∀ text ∈ filter, c ∉ text
  | .assign name value => c ∉ name ∧ c ∉ value
  | .evaluate name expression => c ∉ name ∧ c ∉ expression
  | .sleep seconds => c ∉ seconds
  | .unset name => c ∉ name
  | .poll condition words => c ∉ condition ∧ ∀ word ∈ words, c ∉ word
  | .invoke words condition operators =>
      (∀ word ∈ words, c ∉ word) ∧ (∀ text ∈ condition, c ∉ text) ∧ AllLack c operators
  | .nothing | .clear | .quit | .leave | .listVariables => True

def AllLack (c : Char) : List Command → Prop
  | [] => True
  | first :: rest => first.Lacks c ∧ AllLack c rest

end

/-- Neither the command nor the fault has the character. -/
def GivesLacks (c : Char) (outcome : Except LineFault Command) : Prop :=
  Gives outcome (fun command => command.Lacks c) fun fault => fault.Lacks c

/-- Neither the command, if there is one, nor the fault has the character. -/
def GivesAnyLacks (c : Char) (outcome : Except LineFault (Option Command)) : Prop :=
  Gives outcome (fun found => ∀ command ∈ found, command.Lacks c) fun fault => fault.Lacks c

theorem findShorthand_lacks (fresh : Fresh c) {rest : Text} (lacks : c ∉ rest) :
    GivesLacks c (findShorthand rest) := by
  have sign : c ≠ '$' := fresh.ne (by decide)
  have lacksTarget : c ∉ if rest.head? = some '*' then rest.tail else rest := by
    split
    · exact fun member => lacks (List.mem_of_mem_tail member)
    · exact lacks
  unfold findShorthand
  dsimp only
  generalize (if rest.head? = some '*' then rest.tail else rest) = target at lacksTarget ⊢
  split
  · rename_i assignment
    have lacksAssignment : c ∉ assignment := fun member => lacksTarget (.tail _ member)
    split
    · rename_i name field isCut
      obtain ⟨lacksName, lacksField⟩ := cut?_lacks isCut lacksAssignment
      have isName : c ∉ '$' :: name := by simp [sign, lacksName]
      split
      · split
        · exact ⟨lacksField, isName⟩
        · exact ⟨lacksField, by simpa using isName, by simp⟩
      · exact lacksTarget
    · exact lacksTarget
  · split
    · trivial
    · exact ⟨lacksTarget, by simp, by simp⟩

theorem setShorthand_lacks {word : Text} (lacks : c ∉ word) :
    GivesLacks c (setShorthand word) := by
  unfold setShorthand
  split
  · exact lacks
  · rename_i left value isCut
    obtain ⟨lacksLeft, lacksValue⟩ := cut?_lacks isCut lacks
    have name : c ∉ left.dropLast := fun member => lacksLeft (List.dropLast_subset _ member)
    dsimp only
    split <;> split
    · exact lacks
    · exact ⟨name, lacksValue⟩
    · exact lacks
    · exact ⟨lacksLeft, lacksValue⟩

theorem shorthand_lacks (fresh : Fresh c) (isScript : Text → Bool) {word : Text}
    (lacks : c ∉ word) : GivesAnyLacks c (shorthand? isScript word) := by
  have finds {rest : Text} (lacksRest : c ∉ rest) :
      GivesAnyLacks c ((findShorthand rest).map some) := by
    simpa [GivesAnyLacks, GivesLacks] using findShorthand_lacks fresh lacksRest
  have sets : GivesAnyLacks c ((setShorthand word).map some) := by
    simpa [GivesAnyLacks, GivesLacks] using setShorthand_lacks lacks
  unfold shorthand?
  split
  · simpa [GivesAnyLacks, Lacks] using lacks
  · have rest {first : Char} {others : Text} (isWord : c ∉ first :: others) : c ∉ others :=
      fun member => isWord (.tail _ member)
    split
    · simpa [GivesAnyLacks, Lacks] using rest lacks
    · trivial
    · exact finds (rest lacks)
    · simpa [GivesAnyLacks, Lacks] using rest (rest lacks)
    · simpa [GivesAnyLacks, Lacks] using rest lacks
    · simpa [GivesAnyLacks, Lacks] using rest (rest lacks)
    · simpa [GivesAnyLacks, Lacks] using rest lacks
    · simp [GivesAnyLacks, Lacks]
    · exact sets
    · split
      · simpa [GivesAnyLacks, Lacks] using rest lacks
      · exact lacks
    · exact lacks
    · exact lacks
    · simp [GivesAnyLacks]

theorem remainder_lacks (fresh : Fresh c) {all skipped : List Text} {text : Text}
    (lacksAll : ∀ word ∈ all, c ∉ word) (lacks : c ∉ text) : c ∉ remainder all skipped text := by
  have quoted := Masking.unwords_lacks fresh lacksAll
  induction skipped generalizing text with
  | nil => exact lacks
  | cons word skipped inductionHypothesis =>
      rw [remainder]
      split
      · rename_i next rest isAfter
        split
        · exact inductionHypothesis (trimStart_lacks (after?_lacks isAfter lacks))
        · exact quoted
      · exact quoted

theorem tail_lacks (fresh : Fresh c) {text : Text} {words : List Text} (lacks : c ∉ text)
    (lacksWords : ∀ word ∈ words, c ∉ word) (count : Nat) : c ∉ tail text words count :=
  remainder_lacks fresh (fun word member => lacksWords word (List.mem_of_mem_drop member))
    (trimStart_lacks lacks)

theorem afterSpace?_lacks {text rest : Text} (isRest : afterSpace? text = some rest)
    (lacks : c ∉ text) : c ∉ rest := by
  obtain ⟨parts, isCut, rfl⟩ := Option.map_eq_some_iff.mp isRest
  exact (cut?_lacks isCut lacks).2

theorem unquoted_lacks {value : Text} (lacks : c ∉ value) : c ∉ unquoted value := by
  unfold unquoted
  split
  · exact fun member => lacks (List.mem_of_mem_tail (List.dropLast_subset _ member))
  · exact lacks

theorem setKeyword_lacks {text : Text} (lacks : c ∉ text) : GivesLacks c (setKeyword text) := by
  have lacksRest : c ∉ trim ((afterSpace? text).getD []) := by
    apply trim_lacks
    cases isRest : afterSpace? text with
    | none => exact List.not_mem_nil
    | some rest => exact afterSpace?_lacks isRest lacks
  unfold setKeyword
  dsimp only
  generalize trim ((afterSpace? text).getD []) = rest at lacksRest ⊢
  split
  · trivial
  · split
    · trivial
    · rename_i first value isCut
      obtain ⟨lacksFirst, lacksValue⟩ := cut?_lacks isCut lacksRest
      split
      · split
        · trivial
        · rename_i name expression isCutToo
          obtain ⟨lacksName, lacksExpression⟩ := cut?_lacks isCutToo (trim_lacks lacksValue)
          exact ⟨lacksName, trim_lacks lacksExpression⟩
      · exact ⟨lacksFirst, unquoted_lacks (trim_lacks lacksValue)⟩

/-- The text of the wrapper does not have the character. -/
def Wrapper.Lacks (c : Char) : Wrapper → Prop
  | .conditional condition => c ∉ condition
  | .context look => c ∉ look

theorem Wrapper.word_lacks (fresh : Fresh c) {wrapper : Wrapper} (lacks : wrapper.Lacks c) :
    c ∉ wrapper.word := by
  have question : c ≠ '?' := fresh.ne (by decide)
  have slash : c ≠ '/' := fresh.ne (by decide)
  cases wrapper with
  | conditional condition => simpa [Wrapper.word, Wrapper.Lacks, question] using lacks
  | context look => simpa [Wrapper.word, Wrapper.Lacks, slash] using lacks

theorem around_lacks {wrapper : Wrapper} {inner : Command} (lacks : wrapper.Lacks c)
    (innerLacks : inner.Lacks c) : (wrapper.around inner).Lacks c := by
  cases wrapper with
  | conditional condition => exact ⟨lacks, innerLacks⟩
  | context look => exact ⟨lacks, innerLacks⟩

theorem wrapped_lacks {waiting : List Wrapper} {leaf : Command}
    (lacks : ∀ wrapper ∈ waiting, wrapper.Lacks c) (leafLacks : leaf.Lacks c) :
    (waiting.foldl (fun inner wrapper => wrapper.around inner) leaf).Lacks c := by
  induction waiting generalizing leaf with
  | nil => exact leafLacks
  | cons wrapper rest inductionHypothesis =>
      simp only [List.mem_cons, forall_eq_or_imp] at lacks
      exact inductionHypothesis lacks.2 (around_lacks lacks.1 leafLacks)

theorem read?_lacks {word : Text} {wrapper : Wrapper} (isWrapper : Wrapper.read? word = some wrapper)
    (lacks : c ∉ word) : wrapper.Lacks c := by
  unfold Wrapper.read? at isWrapper
  split at isWrapper
  · cases isWrapper
    exact fun member => lacks (.tail _ member)
  · cases isWrapper
    exact fun member => lacks (.tail _ (.tail _ member))
  · cases isWrapper

theorem operatorCommand_lacks (fresh : Fresh c) (isScript : Text → Bool) {operator : Text}
    (lacks : c ∉ operator) : GivesLacks c (operatorCommand isScript operator) := by
  have read := shorthand_lacks fresh isScript lacks
  unfold operatorCommand
  split
  · rename_i fault failed
    rw [failed] at read
    exact read
  · rename_i command found
    rw [found] at read
    exact read command rfl
  · exact lacks

/-- The induction is on the words; the wrappers that wait stand before them. -/
theorem operators_lacks (fresh : Fresh c) (isScript : Text → Bool) {waiting : List Wrapper}
    {condition : Option Text} {words : List Text} (lacksWaiting : ∀ wrapper ∈ waiting, wrapper.Lacks c)
    (lacksCondition : ∀ text ∈ condition, c ∉ text) (lacks : ∀ word ∈ words, c ∉ word) :
    Gives (operators isScript waiting condition words)
      (fun read => (∀ text ∈ read.1, c ∉ text) ∧ AllLack c read.2) fun fault => fault.Lacks c := by
  induction words generalizing waiting condition with
  | nil =>
      cases waiting with
      | nil => exact ⟨lacksCondition, trivial⟩
      | cons wrapper rest => exact Wrapper.word_lacks fresh (lacksWaiting wrapper List.mem_cons_self)
  | cons operator rest inductionHypothesis =>
      simp only [List.mem_cons, forall_eq_or_imp] at lacks
      unfold operators
      split
      · rename_i polled
        split
        · trivial
        · refine inductionHypothesis (by simp) ?_ lacks.2
          rintro text ⟨⟩
          exact fun member => lacks.1 (.tail _ member)
      · split
        · rename_i wrapper isWrapper
          refine inductionHypothesis ?_ lacksCondition lacks.2
          simp only [List.mem_cons, forall_eq_or_imp]
          exact ⟨read?_lacks isWrapper lacks.1, lacksWaiting⟩
        · have leafRead := operatorCommand_lacks fresh isScript lacks.1
          split
          · rename_i fault failed
            rw [failed] at leafRead
            exact leafRead
          · rename_i leaf isLeaf
            rw [isLeaf] at leafRead
            rw [gives_map]
            refine (inductionHypothesis (by simp) lacksCondition lacks.2).weaken ?_ (fun _ lacks => lacks)
            exact fun read lacksRead => ⟨lacksRead.1, wrapped_lacks lacksWaiting leafRead, lacksRead.2⟩

theorem methodCall_lacks (fresh : Fresh c) (isScript : Text → Bool) {words : List Text}
    (lacks : ∀ word ∈ words, c ∉ word) : GivesLacks c (methodCall isScript words) := by
  have read : Gives (operators isScript [] none (words.filter isOperator))
      (fun read => (∀ text ∈ read.1, c ∉ text) ∧ AllLack c read.2) fun fault => fault.Lacks c :=
    operators_lacks fresh isScript (by simp) (by simp) fun word member =>
      lacks word (List.mem_filter.mp member).1
  unfold methodCall
  dsimp only
  split
  · trivial
  · split
    · rename_i fault failed
      rw [failed] at read
      exact read
    · rename_i condition commands isRead
      rw [isRead] at read
      exact ⟨fun word member => lacks word (List.mem_filter.mp member).1, read⟩

theorem checkCount_lacks {usage : Usage} {words : List Text} {least : Nat} {most : Option Nat}
    (lacks : ∀ word ∈ words, c ∉ word) {counted : Prop} (holds : counted) :
    Gives (checkCount usage words least most) (fun _ => counted) fun fault => fault.Lacks c := by
  unfold checkCount
  dsimp only
  split
  · exact holds
  · cases words with
    | nil => exact List.not_mem_nil
    | cons first rest => exact lacks first List.mem_cons_self

section

variable {inner : Text → Except LineFault Command}
  (innerLacks : ∀ text, c ∉ text → GivesLacks c (inner text))
include innerLacks

theorem longShorthand_lacks (fresh : Fresh c) {text : Text} {words : List Text}
    (lacks : c ∉ text) (lacksWords : ∀ word ∈ words, c ∉ word) :
    GivesAnyLacks c (longShorthand? inner text words) := by
  have inside (wrapper : Wrapper) (lacksWrapper : wrapper.Lacks c) :
      GivesAnyLacks c ((inner (tail text words 1)).map fun command =>
        some (wrapper.around command)) := by
    rw [GivesAnyLacks, gives_map]
    refine (innerLacks _ (tail_lacks fresh lacks lacksWords 1)).weaken ?_ (fun _ lacks => lacks)
    rintro command lacksCommand _ ⟨⟩
    exact around_lacks lacksWrapper lacksCommand
  have rest {first : Char} {others : Text} (isWord : c ∉ first :: others) : c ∉ others :=
    fun member => isWord (.tail _ member)
  unfold longShorthand?
  split
  · trivial
  · exact inside (.conditional _) (rest (lacksWords _ List.mem_cons_self))
  · rename_i fields others
    have lacksFields : c ∉ fields := rest (rest (lacksWords _ List.mem_cons_self))
    split
    · rename_i second
      split
      · rename_i filter isFilter
        have lacksFilter : c ∉ filter := after?_lacks isFilter (lacksWords second (by simp))
        split
        · simp [GivesAnyLacks, Lacks, lacksFields, lacksFilter]
        · trivial
      · trivial
    · trivial
  · simpa [GivesAnyLacks, Lacks] using fun member => lacks (List.mem_of_mem_tail member)
  · exact inside (.context _) (rest (rest (lacksWords _ List.mem_cons_self)))
  · rename_i condition others
    have lacksCondition : c ∉ condition := rest (lacksWords _ List.mem_cons_self)
    have lacksOthers (word : Text) (member : word ∈ others) : c ∉ word :=
      lacksWords word (.tail _ member)
    simpa [GivesAnyLacks, Lacks, lacksCondition] using lacksOthers
  · simp [GivesAnyLacks]

theorem keywordCommand_lacks (fresh : Fresh c) (isScript : Text → Bool) {text : Text}
    {words : List Text} (lacks : c ∉ text) (lacksWords : ∀ word ∈ words, c ∉ word) :
    GivesLacks c (keywordCommand isScript inner text words) := by
  have argument (index : Nat) : c ∉ words.getD index [] := by
    rw [List.getD_eq_getElem?_getD]
    cases found : words[index]? with
    | none => exact List.not_mem_nil
    | some word => exact lacksWords word (List.mem_of_getElem? found)
  have given (index : Nat) : ∀ text ∈ words[index]?, c ∉ text := fun text member =>
    lacksWords text (List.mem_of_getElem? member)
  have counted {usage : Usage} {least : Nat} {most : Option Nat} {next : Except LineFault Command}
      (lacksNext : GivesLacks c next) :
      GivesLacks c (checkCount usage words least most >>= fun _ => next) := by
    rw [GivesLacks, gives_bind]
    exact checkCount_lacks lacksWords lacksNext
  have inside (wrapper : Wrapper) (lacksWrapper : wrapper.Lacks c) :
      GivesLacks c (inner (tail text words 2) >>= fun command => pure (wrapper.around command)) := by
    rw [GivesLacks, gives_bind]
    exact (innerLacks _ (tail_lacks fresh lacks lacksWords 2)).weaken
      (fun _ lacksCommand => around_lacks lacksWrapper lacksCommand) (fun _ lacks => lacks)
  unfold GivesLacks keywordCommand
  dsimp only
  repeat' with_reducible refine gives_ite.mpr ⟨fun _ => ?_, fun _ => ?_⟩
  · trivial
  · trivial
  · trivial
  · exact counted (argument 1)
  · exact counted (inside (.context _) (argument 1))
  · exact counted (argument 1)
  · exact counted ⟨argument 1, given 2, given 3⟩
  · exact counted ⟨argument 1, argument 2⟩
  · exact counted (argument 1)
  · exact counted (argument 1)
  · exact counted (inside (.conditional _) (argument 1))
  · exact counted ⟨given 1, given 2⟩
  · split
    · rename_i rest isRest
      exact afterSpace?_lacks isRest lacks
    · trivial
  · split
    · exact ⟨lacksWords _ (by simp), by simp⟩
    · rename_i fields joint filter
      split
      · refine ⟨lacksWords _ (by simp), ?_⟩
        rintro text ⟨⟩
        exact lacksWords _ (by simp)
      · trivial
    · trivial
  · exact setKeyword_lacks lacks
  · exact counted (argument 1)
  · exact counted (argument 1)
  · exact counted ⟨argument 1, fun word member => lacksWords word (List.mem_of_mem_drop member)⟩
  · exact methodCall_lacks fresh isScript lacksWords

end

/-- The induction is on the number of commands that may be around other ones. -/
theorem readNested_lacks (fresh : Fresh c) (isScript : Text → Bool) (depth : Nat) {typed : Text}
    (lacks : c ∉ typed) : GivesLacks c (readNested isScript depth typed) := by
  induction depth generalizing typed with
  | zero => trivial
  | succ depth inductionHypothesis =>
      have inner (text : Text) (lacksText : c ∉ text) := inductionHypothesis lacksText
      have lacksText : c ∉ trim typed := trim_lacks lacks
      rw [readNested]
      split
      · exact lacksText
      · trivial
      · rename_i word isWords
        have lacksWords := words?_lacks fresh isWords lacksText
        have read := shorthand_lacks fresh isScript (lacksWords word List.mem_cons_self)
        split
        · rename_i fault failed
          rw [failed] at read
          exact read
        · rename_i command found
          rw [found] at read
          exact read command rfl
        · exact keywordCommand_lacks inner fresh isScript lacksText lacksWords
      · rename_i words isWords
        have lacksWords := words?_lacks fresh isWords lacksText
        have read := longShorthand_lacks inner fresh lacksText lacksWords
        split
        · rename_i fault failed
          rw [failed] at read
          exact read
        · rename_i command found
          rw [found] at read
          exact read command rfl
        · exact keywordCommand_lacks inner fresh isScript lacksText lacksWords

end Command

/-- What a line is read as has no character that the line lacks. -/
theorem Line.read_lacks {c : Char} (fresh : Text.Fresh c) (isScript : Text → Bool) {text : Text}
    (lacks : c ∉ text) :
    Gives (Line.read isScript text) (fun line => line.command.Lacks c) fun fault => fault.Lacks c := by
  have reads {rest : Text} (lacksRest : c ∉ rest) (ignoresFailure : Bool) :
      Gives ((Command.read isScript rest).map fun command => Line.mk ignoresFailure command)
        (fun line => line.command.Lacks c) fun fault => fault.Lacks c := by
    rw [gives_map]
    exact Command.readNested_lacks fresh isScript _ lacksRest
  have lacksTrimmed := Text.trim_lacks lacks
  unfold Line.read
  split
  · trivial
  · trivial
  · trivial
  · rename_i rest isText
    rw [isText] at lacksTrimmed
    exact reads (fun member => lacksTrimmed (.tail _ member)) _
  · exact reads lacksTrimmed _

end ManagementShell

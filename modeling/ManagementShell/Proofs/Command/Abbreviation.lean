import ManagementShell.Proofs.Command.Nesting
import ManagementShell.Proofs.Command.Operators
import ManagementShell.Proofs.Command.Setting
import ManagementShell.Proofs.Text.Paragraph

/-
This file shows that each command with a shorthand is read from the shorthand as from its keyword: the
commands with plain words as their arguments, and the ones around an inner command, whatever that is.
-/

namespace ManagementShell

namespace Text

theorem join_singleton (word : Text) : join " " [word] = word := by simp [join]

theorem join_cons_cons (word second : Text) (others : List Text) :
    join " " (word :: second :: others) = word ++ ' ' :: join " " (second :: others) := by
  simp [join, List.intercalate_cons_cons]

/-- A line of plain words that are separated by single spaces is split into these words. -/
theorem words?_join {words : List Text} (areWords : ∀ word ∈ words, IsWord word) :
    words? (join " " words) = some words ∧ Trimmed (join " " words) := by
  induction words with
  | nil => exact ⟨rfl, nofun, nofun⟩
  | cons word others inductionHypothesis =>
      rw [List.forall_mem_cons] at areWords
      obtain ⟨isWord, areOthers⟩ := areWords
      cases others with
      | nil =>
          rw [join_singleton]
          exact ⟨isWord.words?_eq, isWord.plain.trimmed⟩
      | cons second others =>
          obtain ⟨isJoined, trimmed⟩ := inductionHypothesis areOthers
          rw [join_cons_cons]
          refine ⟨by rw [isWord.words?_append, isJoined]; rfl, ?_, ?_⟩
          · obtain ⟨plain, first, rest, rfl, -⟩ := isWord
            exact plain.trimmed.head
          · intro character isLast
            have nonempty : join " " (second :: others) ≠ [] := by
              intro empty
              rw [empty] at isJoined
              cases isJoined
            rw [List.getLast?_append_of_ne_nil _ (List.cons_ne_nil _ _),
              List.getLast?_cons_of_ne_nil nonempty] at isLast
            exact trimmed.last character isLast

theorem join_ne_nil {words : List Text} (areWords : ∀ word ∈ words, IsWord word)
    (nonempty : words ≠ []) : join " " words ≠ [] := by
  intro empty
  have isJoined := (words?_join areWords).1
  rw [empty] at isJoined
  exact nonempty (Option.some.inj isJoined).symm

theorem startsVisible_join {words : List Text} (areWords : ∀ word ∈ words, IsWord word)
    (nonempty : words ≠ []) (rest : Text) : StartsVisible (join " " words ++ rest) := by
  intro character isHead
  rw [List.head?_append_of_ne_nil _ (join_ne_nil areWords nonempty)] at isHead
  exact (words?_join areWords).2.head character isHead

theorem words?_join_append {words : List Text} (areWords : ∀ word ∈ words, IsWord word)
    (rest : Text) : words? (join " " words ++ ' ' :: rest) = (words? rest).map (words ++ ·) := by
  induction words with
  | nil =>
      have nothing : join " " [] = [] := rfl
      rw [nothing, List.nil_append, words?_separator rfl]
      simp
  | cons word others inductionHypothesis =>
      rw [List.forall_mem_cons] at areWords
      cases others with
      | nil =>
          rw [join_singleton, areWords.1.words?_append]
          rfl
      | cons second others =>
          rw [join_cons_cons, List.append_assoc, List.cons_append, areWords.1.words?_append,
            inductionHypothesis areWords.2, Option.map_map]
          rfl

/-- Only the blanks at the end are lost when a line is trimmed that begins with words. -/
theorem trim_join_append {words : List Text} (areWords : ∀ word ∈ words, IsWord word)
    (nonempty : words ≠ []) (rest : Text) : trim (join " " words ++ ' ' :: rest) =
      if trimEnd rest = [] then join " " words else join " " words ++ ' ' :: trimEnd rest := by
  obtain ⟨body, blanks, rfl, areBlank, ends⟩ := exists_blanks_at_end rest
  rw [trimEnd_append_of_blank body areBlank, ends.trimEnd_eq, ← List.cons_append,
    ← List.append_assoc, trim_append_blanks _ areBlank]
  split
  · rename_i empty
    rw [empty, trim_append_blanks _ (by rfl), (words?_join areWords).2.trim_eq]
  · rename_i given
    have starts := startsVisible_join areWords nonempty (' ' :: body)
    refine Trimmed.trim_eq ⟨starts, fun character isLast => ends character ?_⟩
    rwa [List.getLast?_append_of_ne_nil _ (List.cons_ne_nil _ _),
      List.getLast?_cons_of_ne_nil given] at isLast

theorem trim_trimStart_trimEnd (text : Text) : trim (trimStart (trimEnd text)) = trim text := by
  obtain ⟨front, blanks, rfl, areBlank, ends⟩ := exists_blanks_at_end text
  rw [trimEnd_append_of_blank front areBlank, ends.trimEnd_eq, trim_append_blanks _ areBlank, trim,
    trim, (startsVisible_trimStart front).trimStart_eq]

/-- A plain text behind a mark is a word. -/
theorem IsPlain.isWord_cons {text : Text} (plain : IsPlain text) {mark : Char}
    (isPlain : isPlain mark = true) (noComment : mark ≠ '#') : IsWord (mark :: text) :=
  ⟨isPlain_cons isPlain plain, mark, text, rfl, noComment⟩

end Text

namespace Command
open Text

theorem setKeyword_evaluate {name expression : Text} (isName : IsWord name)
    (isExpression : IsWord expression) :
    setKeyword (join " " ["Set", "/a", name, expression]) = .ok (.evaluate name expression) := by
  have isOption : IsWord "/a" := by decide
  have noSpace : ' ' ∉ name := fun member => by cases isName.plain _ member
  have trimmed : Trimmed (join " " [name, expression]) :=
    (words?_join (by simp [isName, isExpression])).2
  have trimmedOption : Trimmed (join " " ["/a", name, expression]) :=
    (words?_join (List.forall_mem_cons.mpr ⟨isOption, by simp [isName, isExpression]⟩)).2
  simp only [join_cons_cons, join_singleton] at trimmed trimmedOption ⊢
  have after : afterSpace? ("Set" ++ ' ' :: ("/a" ++ ' ' :: (name ++ ' ' :: expression))) =
      some ("/a" ++ ' ' :: (name ++ ' ' :: expression)) :=
    congrArg (Option.map Prod.snd) (cut?_append (by decide))
  have given : "/a".toList ++ ' ' :: (name ++ ' ' :: expression) ≠ [] := by simp
  have cut : cut? ("/a" ++ ' ' :: (name ++ ' ' :: expression)) " " =
      some ("/a".toList, name ++ ' ' :: expression) := cut?_append (by decide)
  have cutName : cut? (name ++ ' ' :: expression) " " = some (name, expression) :=
    cut?_append noSpace
  have isLower : toLower "/a" = "/a" := by decide
  simp only [setKeyword, after, Option.getD_some, trimmedOption.trim_eq, if_neg given, cut,
    if_pos isLower, trimmed.trim_eq, cutName, isExpression.plain.trimmed.trim_eq]

theorem findShorthand_variable {name look : Text} (noSign : '=' ∉ name) (named : name ≠ [])
    (given : look ≠ []) :
    findShorthand ('$' :: (name ++ '=' :: look)) = .ok (.find look (some ('$' :: name)) none) ∧
      findShorthand ('*' :: '$' :: (name ++ '=' :: look)) = .ok (.findAll look ('$' :: name)) := by
  have cut : cut? (name ++ '=' :: look) ['='] = some (name, look) := cut?_append noSign
  constructor
  · simp [findShorthand, cut, named, given]
  · simp [findShorthand, cut, named, given]

theorem setShorthand_evaluate {name expression : Text} (noSign : '=' ∉ name) (named : name ≠ [])
    (given : expression ≠ []) :
    setShorthand ('$' :: (name ++ ':' :: '=' :: expression)) =
      .ok (.evaluate ('$' :: name) expression) := by
  have written : '$' :: (name ++ ':' :: '=' :: expression) =
      ('$' :: name ++ [':']) ++ '=' :: expression := by simp
  have cut : cut? (('$' :: name ++ [':']) ++ '=' :: expression) "=" =
      some ('$' :: name ++ [':'], expression) := cut?_append (by simp [noSign])
  have colonLast : ('$' :: name ++ [':']).getLast? = some ':' := List.getLast?_concat
  have length := List.length_pos_iff.mpr named
  have long : ¬(('$' :: name).length < 2 ∨ expression = []) := by
    simp only [List.length_cons, given, or_false]
    omega
  rw [setShorthand, written, cut]
  simp only [if_pos colonLast, List.dropLast_concat, if_neg long]

section

variable {isScript : Text → Bool} {rest : Text}

theorem shorthand_find (noScript : ¬(endsWith ('/' :: rest) ".win" = true ∧
    isScript ('/' :: rest) = true)) (unmarked : rest.head? ≠ some '/') :
    shorthand? isScript ('/' :: rest) = (findShorthand rest).map some := by
  rw [shorthand?.eq_def, if_neg noScript]
  split <;> simp_all

theorem shorthand_goto (noScript : ¬(endsWith ('>' :: rest) ".win" = true ∧
    isScript ('>' :: rest) = true)) (unmarked : rest.head? ≠ some '>') :
    shorthand? isScript ('>' :: rest) = .ok (some (.goto rest)) := by
  rw [shorthand?.eq_def, if_neg noScript]
  split <;> simp_all

theorem shorthand_print (noScript : ¬(endsWith ('<' :: rest) ".win" = true ∧
    isScript ('<' :: rest) = true)) (unmarked : rest.head? ≠ some '<') :
    shorthand? isScript ('<' :: rest) = .ok (some (.print rest)) := by
  rw [shorthand?.eq_def, if_neg noScript]
  split <;> simp_all

theorem longShorthand_print (inner : Text → Except LineFault Command) (text second : Text)
    (others : List Text) (unmarked : rest.head? ≠ some '<') :
    longShorthand? inner text (('<' :: rest) :: second :: others) =
      .ok (some (.print text.tail)) := by
  unfold longShorthand?
  split <;> simp_all

theorem longShorthand_report (inner : Text → Except LineFault Command) (text fields : Text)
    {filter : Text} (filters : '=' ∈ filter) :
    longShorthand? inner text ['<' :: '<' :: fields, '/' :: '/' :: filter] =
      .ok (some (.report fields (some filter))) :=
  if_pos filters

end

/-- A command with two spellings, by the words in it. -/
inductive Abbreviation where
  | count (name : Text)
  | find (look : Text)
  | findInto (name look : Text)
  | findAll (name field : Text)
  | goto (target : Text)
  | gosub (target : Text)
  | report (fields : Text)
  | reportWhere (fields key value : Text)
  | assign (name value : Text)
  | evaluate (name expression : Text)
  | unset (name : Text)
  | print (first : Text) (others : List Text)
  | poll (condition first : Text) (others : List Text)

namespace Abbreviation

/-- The words of the shorthand. -/
def short : Abbreviation → List Text
  | .count name => ['+' :: name]
  | .find look => ['/' :: look]
  | .findInto name look => ['/' :: '$' :: (name ++ '=' :: look)]
  | .findAll name field => ['/' :: '*' :: '$' :: (name ++ '=' :: field)]
  | .goto target => ['>' :: target]
  | .gosub target => ['>' :: '>' :: target]
  | .report fields => ['<' :: '<' :: fields]
  | .reportWhere fields key value => ['<' :: '<' :: fields, '/' :: '/' :: (key ++ '=' :: value)]
  | .assign name value => ['$' :: (name ++ '=' :: value)]
  | .evaluate name expression => ['$' :: (name ++ ':' :: '=' :: expression)]
  | .unset name => ['~' :: '$' :: name]
  | .print first others => ('<' :: first) :: others
  | .poll condition first others => ('\x7b' :: condition) :: first :: others

/-- The words of the line with the keyword. -/
def long : Abbreviation → List Text
  | .count name => ["Count", name]
  | .find look => ["Find", look]
  | .findInto name look => ["Find", look, '$' :: name]
  | .findAll name field => ["Findall", field, '$' :: name]
  | .goto target => ["Goto", target]
  | .gosub target => ["Gosub", target]
  | .report fields => ["Report", fields]
  | .reportWhere fields key value => ["Report", fields, "where", key ++ '=' :: value]
  | .assign name value => ["Set", '$' :: name, value]
  | .evaluate name expression => ["Set", "/a", '$' :: name, expression]
  | .unset name => ["Unset", '$' :: name]
  | .print first others => "Print" :: first :: others
  | .poll condition first others => "Until" :: condition :: first :: others

def command : Abbreviation → Command
  | .count name => .count name
  | .find look => .find look none none
  | .findInto name look => .find look (some ('$' :: name)) none
  | .findAll name field => .findAll field ('$' :: name)
  | .goto target => .goto target
  | .gosub target => .gosub target
  | .report fields => .report fields none
  | .reportWhere fields key value => .report fields (some (key ++ '=' :: value))
  | .assign name value => .assign ('$' :: name) value
  | .evaluate name expression => .evaluate ('$' :: name) expression
  | .unset name => .unset ('$' :: name)
  | .print first others => .print (join " " (first :: others))
  | .poll condition first others => .poll condition (first :: others)

/-- The words are plain, and none of them changes the mark in front of it. -/
def IsPlain : Abbreviation → Prop
  | .count name => IsWord name
  | .find look => IsWord look ∧ ∀ first ∈ look.head?, first ∉ ("/*$" : Text)
  | .findInto name look => IsWord name ∧ '=' ∉ name ∧ IsWord look
  | .findAll name field => IsWord name ∧ '=' ∉ name ∧ IsWord field
  | .goto target => IsWord target ∧ target.head? ≠ some '>'
  | .gosub target => IsWord target
  | .report fields => IsWord fields
  | .reportWhere fields key value => IsWord fields ∧ IsWord key ∧ IsWord value
  | .assign name value => IsWord name ∧ '=' ∉ name ∧ ':' ∉ name ∧ IsWord value
  | .evaluate name expression => IsWord name ∧ '=' ∉ name ∧ IsWord expression
  | .unset name => IsWord name
  | .print first others => IsWord first ∧ first.head? ≠ some '<' ∧ ∀ word ∈ others, IsWord word
  | .poll condition first others => IsWord condition ∧ IsWord first ∧ ∀ word ∈ others, IsWord word

section

variable {abbreviation : Abbreviation}

theorem IsPlain.words_short (plain : abbreviation.IsPlain) :
    ∀ word ∈ abbreviation.short, IsWord word := by
  have marked {mark : Char} {text : Text} (isText : Text.IsPlain text)
      (isMark : isPlain mark = true) (noComment : mark ≠ '#') :
      ∀ word ∈ [mark :: text], IsWord word :=
    List.forall_mem_singleton.mpr (isText.isWord_cons isMark noComment)
  have assigned {name value : Text} (isName : IsWord name) (isValue : IsWord value) :
      Text.IsPlain (name ++ '=' :: value) := isName.plain.append (isPlain_cons rfl isValue.plain)
  cases abbreviation with
  | count name => exact marked plain.plain rfl (by decide)
  | find look => exact marked plain.1.plain rfl (by decide)
  | findInto name look =>
      exact marked (isPlain_cons rfl (assigned plain.1 plain.2.2)) rfl (by decide)
  | findAll name field =>
      exact marked (isPlain_cons rfl (isPlain_cons rfl (assigned plain.1 plain.2.2))) rfl (by decide)
  | goto target => exact marked plain.1.plain rfl (by decide)
  | gosub target => exact marked (isPlain_cons rfl plain.plain) rfl (by decide)
  | report fields => exact marked (isPlain_cons rfl plain.plain) rfl (by decide)
  | reportWhere fields key value =>
      obtain ⟨isFields, isKey, isValue⟩ := plain
      exact List.forall_mem_cons.mpr
        ⟨(isPlain_cons rfl isFields.plain).isWord_cons rfl (by decide),
          marked (isPlain_cons rfl (assigned isKey isValue)) rfl (by decide)⟩
  | assign name value => exact marked (assigned plain.1 plain.2.2.2) rfl (by decide)
  | evaluate name expression =>
      have assigned : Text.IsPlain (name ++ ':' :: '=' :: expression) :=
        plain.1.plain.append (isPlain_cons rfl (isPlain_cons rfl plain.2.2.plain))
      exact marked assigned rfl (by decide)
  | unset name => exact marked (isPlain_cons rfl plain.plain) rfl (by decide)
  | print first others =>
      exact List.forall_mem_cons.mpr ⟨plain.1.plain.isWord_cons rfl (by decide), plain.2.2⟩
  | poll condition first others =>
      exact List.forall_mem_cons.mpr
        ⟨plain.1.plain.isWord_cons rfl (by decide), List.forall_mem_cons.mpr plain.2⟩

theorem IsPlain.words_long (plain : abbreviation.IsPlain) :
    ∀ word ∈ abbreviation.long, IsWord word := by
  have isVariable {name : Text} (isName : IsWord name) : IsWord ('$' :: name) :=
    isName.plain.isWord_cons rfl (by decide)
  have assigned {key value : Text} (isKey : IsWord key) (isValue : IsWord value) :
      IsWord (key ++ '=' :: value) := by
    obtain ⟨isPlain, first, rest, rfl, noComment⟩ := isKey
    exact ⟨isPlain.append (isPlain_cons rfl isValue.plain), first, _, rfl, noComment⟩
  cases abbreviation <;>
    simp only [long, List.forall_mem_cons, List.not_mem_nil, false_implies, implies_true, and_true]
  case count name => exact ⟨by decide, plain⟩
  case find look => exact ⟨by decide, plain.1⟩
  case findInto name look => exact ⟨by decide, plain.2.2, isVariable plain.1⟩
  case findAll name field => exact ⟨by decide, plain.2.2, isVariable plain.1⟩
  case goto target => exact ⟨by decide, plain.1⟩
  case gosub target => exact ⟨by decide, plain⟩
  case report fields => exact ⟨by decide, plain⟩
  case reportWhere fields key value =>
    exact ⟨by decide, plain.1, by decide, assigned plain.2.1 plain.2.2⟩
  case assign name value => exact ⟨by decide, isVariable plain.1, plain.2.2.2⟩
  case evaluate name expression => exact ⟨by decide, by decide, isVariable plain.1, plain.2.2⟩
  case unset name => exact ⟨by decide, isVariable plain⟩
  case print first others => exact ⟨by decide, plain.1, plain.2.2⟩
  case poll condition first others => exact ⟨by decide, plain⟩

variable (isScript : Text → Bool) (inner : Text → Except LineFault Command)

theorem readWords_long (plain : abbreviation.IsPlain) :
    readWords isScript inner (join " " abbreviation.long) abbreviation.long =
      .ok abbreviation.command := by
  have sets (text : Text) (first second : Text) (others : List Text) :
      readWords isScript inner text ("Set" :: first :: second :: others) = setKeyword text := rfl
  cases abbreviation with
  | assign name value =>
      obtain ⟨isName, -, -, isValue⟩ := plain
      have isVariable : IsWord ('$' :: name) := isName.plain.isWord_cons rfl (by decide)
      rw [long, sets, join_cons_cons, join_cons_cons, join_singleton]
      exact setKeyword_plain isVariable (by simp [toLower]) isValue.plain isValue.ne_nil
  | evaluate name expression =>
      have isVariable : IsWord ('$' :: name) := plain.1.plain.isWord_cons rfl (by decide)
      rw [long, sets]
      exact setKeyword_evaluate isVariable plain.2.2
  | reportWhere fields key value =>
      have filters : toLower "where" = "where" ∧ '=' ∈ key ++ '=' :: value := ⟨by decide, by simp⟩
      have reads (text filter : Text) :
          readWords isScript inner text ["Report", fields, "where", filter] =
            if toLower "where" = "where" ∧ '=' ∈ filter then .ok (.report fields (some filter))
            else .error .reportKeyword := rfl
      rw [long, reads, if_pos filters]
      rfl
  | print first others =>
      have prints (rest : Text) : readWords isScript inner ("Print" ++ ' ' :: rest)
          ("Print" :: first :: others) = .ok (.print rest) := rfl
      rw [long, join_cons_cons]
      exact prints _
  | _ => rfl

theorem readWords_short (plain : abbreviation.IsPlain)
    (noScript : ∀ word ∈ abbreviation.short, ¬(endsWith word ".win" = true ∧ isScript word = true)) :
    readWords isScript inner (join " " abbreviation.short) abbreviation.short =
      .ok abbreviation.command := by
  have single {word : Text} {command : Command} (text : Text)
      (reads : shorthand? isScript word = .ok (some command)) :
      readWords isScript inner text [word] = .ok command := by
    simp only [readWords, reads]
  cases abbreviation with
  | count | gosub | report | unset =>
      refine single _ ?_
      rw [shorthand?, if_neg (noScript _ List.mem_cons_self)]
      rfl
  | find look =>
      obtain ⟨isWord, unmarked⟩ := plain
      obtain ⟨first, rest, rfl⟩ := List.exists_cons_of_ne_nil isWord.ne_nil
      have differs : first ≠ '/' ∧ first ≠ '*' ∧ first ≠ '$' := by
        simpa using unmarked first rfl
      have finds : findShorthand (first :: rest) = .ok (.find (first :: rest) none none) := by
        simp [findShorthand, differs]
      refine single _ ?_
      rw [shorthand_find (noScript _ List.mem_cons_self) (by simp [differs]), finds]
      rfl
  | findInto name look =>
      obtain ⟨isName, noSign, isLook⟩ := plain
      refine single _ ?_
      rw [shorthand_find (noScript _ List.mem_cons_self) (by simp),
        (findShorthand_variable noSign isName.ne_nil isLook.ne_nil).1]
      rfl
  | findAll name field =>
      obtain ⟨isName, noSign, isField⟩ := plain
      refine single _ ?_
      rw [shorthand_find (noScript _ List.mem_cons_self) (by simp),
        (findShorthand_variable noSign isName.ne_nil isField.ne_nil).2]
      rfl
  | goto target => exact single _ (shorthand_goto (noScript _ List.mem_cons_self) plain.2)
  | reportWhere fields key value =>
      have filters : '=' ∈ key ++ '=' :: value := by simp
      rw [short, readWords.eq_3 _ _ _ _ (by simp) (by simp), longShorthand_report _ _ _ filters]
      rfl
  | assign name value =>
      obtain ⟨isName, noSign, noColon, isValue⟩ := plain
      have noColonLast : ('$' :: name).getLast? ≠ some ':' := fun isLast => by
        simpa [noColon] using List.mem_of_mem_getLast? isLast
      have long : 2 ≤ ('$' :: name).length :=
        Nat.succ_le_succ (List.length_pos_iff.mpr isName.ne_nil)
      refine single _ ?_
      rw [shorthand_set (noScript _ List.mem_cons_self) (by simp), ← List.cons_append,
        setShorthand_assign (by simp [noSign]) noColonLast long isValue.ne_nil]
      rfl
  | evaluate name expression =>
      obtain ⟨isName, noSign, isExpression⟩ := plain
      refine single _ ?_
      rw [shorthand_set (noScript _ List.mem_cons_self) (by simp),
        setShorthand_evaluate noSign isName.ne_nil isExpression.ne_nil]
      rfl
  | print first others =>
      obtain ⟨isWord, unmarked, -⟩ := plain
      cases others with
      | nil =>
          have joined : join " " [first] = first := join_singleton first
          rw [command, joined]
          exact single _ (shorthand_print (noScript _ List.mem_cons_self) unmarked)
      | cons second others =>
          have whole : (join " " (('<' :: first) :: second :: others)).tail =
              join " " (first :: second :: others) := by
            rw [join_cons_cons, join_cons_cons]
            rfl
          rw [short, readWords.eq_3 _ _ _ _ (by simp) (by simp), longShorthand_print _ _ _ _ unmarked,
            whole]
          rfl
  | poll condition first others => rfl

end

end Abbreviation

namespace Wrapper

/-- The keyword of the line that the wrapper is short for. -/
def keyword : Wrapper → Text
  | .conditional _ => "If"
  | .context _ => "Context"

/-- What the wrapper has behind its mark. -/
def argument : Wrapper → Text
  | .conditional condition => condition
  | .context look => look

theorem isWord_keyword (wrapper : Wrapper) : IsWord wrapper.keyword := by
  cases wrapper with
  | conditional => exact (by decide : IsWord "If")
  | context => exact (by decide : IsWord "Context")

theorem isWord_word {wrapper : Wrapper} (isWord : IsWord wrapper.argument) : IsWord wrapper.word := by
  cases wrapper with
  | conditional condition => exact isWord.plain.isWord_cons rfl (by decide)
  | context look => exact (isPlain_cons rfl isWord.plain).isWord_cons rfl (by decide)

end Wrapper

section

variable {isScript : Text → Bool} {wrapper : Wrapper} {front : List Text}

theorem remainder_join (areWords : ∀ word ∈ front, IsWord word) (nonempty : front ≠ [])
    (all : List Text) (body : Text) :
    remainder all front (join " " front ++ ' ' :: body) = trimStart body := by
  have passed (skipped : List Text) (word rest : Text) :
      remainder all (word :: skipped) (word ++ ' ' :: rest) =
        remainder all skipped (trimStart rest) := by
    have isAfter : after? (word ++ ' ' :: rest) word = some (' ' :: rest) := after?_eq_some.mpr rfl
    rw [remainder, isAfter]
    rfl
  induction front with
  | nil => exact absurd rfl nonempty
  | cons word others inductionHypothesis =>
      rw [List.forall_mem_cons] at areWords
      cases others with
      | nil =>
          rw [join_singleton, passed]
          rfl
      | cons second others =>
          have starts := startsVisible_join areWords.2 (by simp) (' ' :: body)
          rw [join_cons_cons, List.append_assoc, List.cons_append, passed, starts.trimStart_eq]
          exact inductionHypothesis areWords.2 (by simp)

theorem read_trim {typed other : Text} (same : trim typed = trim other) :
    read isScript typed = read isScript other := by
  rw [read_eq, read_eq, same]

theorem words?_trim_join (areWords : ∀ word ∈ front, IsWord word) (nonempty : front ≠ [])
    (rest : Text) : words? (trim (join " " front ++ ' ' :: rest)) =
      (words? (trimEnd rest)).map (front ++ ·) := by
  rw [trim_join_append areWords nonempty]
  split
  · rename_i empty
    rw [(words?_join areWords).1, empty]
    simp [words?, wordsFrom, wordsAtEnd]
  · exact words?_join_append areWords _

/-- The outcome is the wrapper around the command that is read of the text, if that has a word;
otherwise there is no command. -/
def IsAround (isScript : Text → Bool) (wrapper : Wrapper) (rest : Text)
    (outcome : Except LineFault Command) : Prop :=
  match words? (trimEnd rest) with
  | some (_ :: _) => outcome = (read isScript rest).map wrapper.around
  | _ => outcome.toOption = none

theorem IsAround.toOption_eq {rest : Text} {outcome other : Except LineFault Command}
    (isAround : IsAround isScript wrapper rest outcome)
    (isAroundToo : IsAround isScript wrapper rest other) : outcome.toOption = other.toOption := by
  unfold IsAround at isAround isAroundToo
  rcases areRest : words? (trimEnd rest) with _ | _ | ⟨first, others⟩
  · rw [areRest] at isAround isAroundToo
    exact isAround.trans isAroundToo.symm
  · rw [areRest] at isAround isAroundToo
    exact isAround.trans isAroundToo.symm
  · rw [areRest] at isAround isAroundToo
    exact congrArg Except.toOption (isAround.trans isAroundToo.symm)

/-- Whatever words spell it, a wrapper is around what is read of the text behind its words. -/
theorem read_spelled (areWords : ∀ word ∈ front, IsWord word) (nonempty : front ≠ [])
    (opens : ∀ first others, opening? (front ++ first :: others) = some (wrapper, front.length))
    (alone : ∀ inner text, (readWords isScript inner text front).toOption = none) (rest : Text) :
    IsAround isScript wrapper rest (read isScript (join " " front ++ ' ' :: rest)) := by
  have isWords := words?_trim_join areWords nonempty rest
  unfold IsAround
  rcases areRest : words? (trimEnd rest) with _ | _ | ⟨first, others⟩
  · rw [areRest] at isWords
    dsimp only
    rw [read_eq, isWords]
    rfl
  · rw [areRest, Option.map_some, List.append_nil] at isWords
    dsimp only
    rw [read_eq, isWords]
    exact alone _ _
  · have given : trimEnd rest ≠ [] := fun empty => by
      rw [empty] at areRest
      cases areRest
    rw [areRest] at isWords
    have nested : nested? (join " " front ++ ' ' :: rest) =
        some (wrapper, trimStart (trimEnd rest)) := by
      refine nested?_eq_some.mpr ⟨_, _, isWords, opens first others, ?_⟩
      rw [tail, trim_join_append areWords nonempty, if_neg given,
        (startsVisible_join areWords nonempty _).trimStart_eq, List.take_left]
      exact (remainder_join areWords nonempty _ _).symm
    dsimp only
    rw [read_nested isScript nested, read_trim (trim_trimStart_trimEnd rest)]

theorem read_wrapper (isWord : IsWord wrapper.argument)
    (noScript : ¬(endsWith wrapper.word ".win" = true ∧ isScript wrapper.word = true))
    (rest : Text) :
    IsAround isScript wrapper rest (read isScript (wrapper.word ++ ' ' :: rest)) := by
  have fails : ∃ fault, shorthand? isScript wrapper.word = .error fault := by
    rw [shorthand?.eq_def, if_neg noScript]
    cases wrapper with
    | conditional => exact ⟨_, rfl⟩
    | context => exact ⟨_, rfl⟩
  have opens (first : Text) (others : List Text) :
      opening? ([wrapper.word] ++ first :: others) = some (wrapper, 1) := by
    rw [List.singleton_append, opening?, Wrapper.read?_eq_some.mpr rfl]
  have alone (inner : Text → Except LineFault Command) (text : Text) :
      (readWords isScript inner text [wrapper.word]).toOption = none := by
    obtain ⟨fault, fails⟩ := fails
    simp [readWords, fails, Except.toOption]
  have spelled := read_spelled (List.forall_mem_singleton.mpr (Wrapper.isWord_word isWord))
    (List.cons_ne_nil _ _) opens alone rest
  rwa [join_singleton] at spelled

theorem read_keyword (isScript : Text → Bool) (isWord : IsWord wrapper.argument) (rest : Text) :
    IsAround isScript wrapper rest
      (read isScript (wrapper.keyword ++ ' ' :: (wrapper.argument ++ ' ' :: rest))) := by
  have areWords : ∀ word ∈ [wrapper.keyword, wrapper.argument], IsWord word :=
    List.forall_mem_cons.mpr ⟨wrapper.isWord_keyword, List.forall_mem_singleton.mpr isWord⟩
  have opens (first : Text) (others : List Text) :
      opening? ([wrapper.keyword, wrapper.argument] ++ first :: others) = some (wrapper, 2) := by
    cases wrapper with
    | conditional => rfl
    | context => rfl
  have alone (inner : Text → Except LineFault Command) (text : Text) :
      (readWords isScript inner text [wrapper.keyword, wrapper.argument]).toOption = none := by
    cases wrapper with
    | conditional => rfl
    | context => rfl
  have spelled := read_spelled areWords (List.cons_ne_nil _ _) opens alone rest
  rwa [join_cons_cons, join_singleton, List.append_assoc, List.cons_append] at spelled

end

/-- Each shorthand with plain words is read as the same command as the line with its keyword; and a
wrapper with any text behind it as its keyword with the text: around the command that is read of the
text if this has a word. -/
theorem read_abbreviated (isScript : Text → Bool) :
    (∀ abbreviation : Abbreviation, abbreviation.IsPlain →
      (∀ word ∈ abbreviation.short, ¬(endsWith word ".win" = true ∧ isScript word = true)) →
      read isScript (join " " abbreviation.short) = .ok abbreviation.command ∧
        read isScript (join " " abbreviation.long) = .ok abbreviation.command) ∧
    (∀ wrapper : Wrapper, IsWord wrapper.argument →
      ¬(endsWith wrapper.word ".win" = true ∧ isScript wrapper.word = true) → ∀ rest : Text,
      let short := read isScript (wrapper.word ++ ' ' :: rest)
      let long := read isScript (wrapper.keyword ++ ' ' :: (wrapper.argument ++ ' ' :: rest))
      short.toOption = long.toOption ∧
        ∀ first others, words? (trimEnd rest) = some (first :: others) →
          short = (read isScript rest).map wrapper.around) := by
  constructor
  · intro abbreviation plain noScript
    obtain ⟨shortWords, shortTrimmed⟩ := words?_join plain.words_short
    obtain ⟨longWords, longTrimmed⟩ := words?_join plain.words_long
    rw [read_eq, read_eq, shortTrimmed.trim_eq, longTrimmed.trim_eq, shortWords, longWords]
    exact ⟨abbreviation.readWords_short _ _ plain noScript, abbreviation.readWords_long _ _ plain⟩
  · intro wrapper isWord noScript rest short long
    have isAround := read_wrapper isWord noScript rest
    refine ⟨isAround.toOption_eq (read_keyword isScript isWord rest), fun first others areRest => ?_⟩
    rwa [IsAround, areRest] at isAround

/-- The inner command behind the wrapper is a method call with a quoted word and a script behind it. -/
theorem read_abbreviated_quoted :
    let isScript : Text → Bool := fun path => decide (path = ("boot.win" : Text))
    let plain := Abbreviation.findAll "v" "Name"
    let wrapper := Wrapper.context "k=w"
    let rest : Text := "Get 'x y' boot.win /Name  "
    let words : List Text := ["Get", "x y", "boot.win", "/Name"]
    plain.IsPlain ∧
      (∀ word ∈ plain.short, ¬(endsWith word ".win" = true ∧ isScript word = true)) ∧
      read isScript "/*$v=Name" = .ok (.findAll "Name" "$v") ∧
      read isScript "Findall Name $v" = .ok (.findAll "Name" "$v") ∧
      IsWord wrapper.argument ∧
      ¬(endsWith wrapper.word ".win" = true ∧ isScript wrapper.word = true) ∧
      words? (trimEnd rest) = some words ∧
      read isScript ("//k=w" ++ ' ' :: rest) = (read isScript rest).map wrapper.around ∧
      (read isScript ("//k=w" ++ ' ' :: rest)).toOption =
        (read isScript ("Context" ++ ' ' :: ("k=w" ++ ' ' :: rest))).toOption := by
  intro isScript plain wrapper rest words
  have isPlain : plain.IsPlain := ⟨by decide, by decide, by decide⟩
  have noScript : ∀ word ∈ plain.short, ¬(endsWith word ".win" = true ∧ isScript word = true) := by
    decide
  have isWord : IsWord wrapper.argument := by decide
  have noScriptToo : ¬(endsWith wrapper.word ".win" = true ∧ isScript wrapper.word = true) := by
    decide
  have areRest : words? (trimEnd rest) = some words := by decide
  have reads := (read_abbreviated isScript).1 plain isPlain noScript
  have around := (read_abbreviated isScript).2 wrapper isWord noScriptToo rest
  exact ⟨isPlain, noScript, reads.1, reads.2, isWord, noScriptToo, areRest, around.2 _ _ areRest,
    around.1⟩

end Command

end ManagementShell

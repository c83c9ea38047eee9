import ManagementShell.Proofs.Store
import ManagementShell.Proofs.Text.Replace
import ManagementShell.Proofs.Variable.Naming
import Mathlib.Data.List.MinMax

/-
This file shows where variables that are replaced one after the other are replaced as in one scan of
the text: where no inserted value continues the name in front of it.
-/

namespace ManagementShell
open Text Variable

/-- A name, and the text that stands for it. -/
structure Definition where
  name : Text
  value : Text
  deriving DecidableEq, Repr

namespace Definition

/-- The definition whose name is the longest one at the beginning of the text. -/
def longest? (definitions : List Definition) (text : Text) : Option Definition :=
  (definitions.filter fun definition => definition.name.isPrefixOf text).argmax
    fun definition => definition.name.length

/-- The first definition whose name is at the beginning of the text. -/
def first? (definitions : List Definition) (text : Text) : Option Definition :=
  definitions.find? fun definition => definition.name.isPrefixOf text

section

variable (found : Text → Option Definition)

/-- At a dollar sign there is a name that is found, or another one that is left out, or the sign
itself. The number `skip` counts the characters of a name that the scan has gone past. -/
def scanFrom : Nat → Text → Text
  | _, [] => []
  | skip + 1, _ :: rest => scanFrom skip rest
  | 0, character :: rest =>
      if character = '$' then
        match found (character :: rest) with
        | some definition => definition.value ++ scanFrom (definition.name.length - 1) rest
        | none =>
            match rest.takeWhile isWord with
            | [] => character :: scanFrom 0 rest
            | word => scanFrom word.length rest
      else character :: scanFrom 0 rest

/-- All names that are found are replaced at once. -/
def replaceTogetherFrom : Nat → Text → Text
  | _, [] => []
  | skip + 1, _ :: rest => replaceTogetherFrom skip rest
  | 0, character :: rest =>
      match found (character :: rest) with
      | some definition => definition.value ++ replaceTogetherFrom (definition.name.length - 1) rest
      | none => character :: replaceTogetherFrom 0 rest

def replaceTogether (text : Text) : Text := replaceTogetherFrom found 0 text

/-- The text has a name behind the word after a dollar sign, and what is inserted there makes a
defined name of the word, or goes on with it although it is not defined. -/
def continues (definitions : List Definition) (word after : Text) : Bool :=
  (found after).isSome &&
    (definitions.any (fun definition => match Text.after? definition.name ('$' :: word) with
        | some (character :: rest) => (character :: rest).isPrefixOf (replaceTogether found after)
        | _ => false) ||
      ((found ('$' :: word)).isNone && (replaceTogether found after).head?.any isWord))

/-- No value that is inserted directly behind a name continues that name. -/
def isApart (definitions : List Definition) : Text → Bool
  | [] => true
  | character :: rest =>
      !(character == '$' &&
        continues found definitions (rest.takeWhile isWord) (rest.dropWhile isWord)) &&
      isApart definitions rest

end

/-- The scan of a text from left to right. -/
def scan (definitions : List Definition) (text : Text) : Text :=
  scanFrom (longest? definitions) 0 text

/-- Each name is a dollar sign and a word. -/
def Named (definitions : List Definition) : Prop :=
  ∀ definition ∈ definitions, ∃ word, definition.name = '$' :: word ∧ word.all isWord = true

/-- No value has a dollar sign. -/
def Plain (definitions : List Definition) : Prop :=
  ∀ definition ∈ definitions, '$' ∉ definition.value

section

variable {definitions : List Definition} {text : Text} {definition : Definition}

theorem first?_some (isFirst : first? definitions text = some definition) :
    definition.name <+: text ∧ ∃ early late, definitions = early ++ definition :: late ∧
      ∀ other ∈ early, ¬other.name <+: text := by
  obtain ⟨begins, early, late, same, elsewhere⟩ := List.find?_eq_some_iff_append.mp isFirst
  exact ⟨List.isPrefixOf_iff_prefix.mp begins, early, late, same,
    fun other member => by
      simpa [← List.isPrefixOf_iff_prefix] using elsewhere other member⟩

theorem first?_mem (isFirst : first? definitions text = some definition) :
    definition ∈ definitions := List.mem_of_find?_eq_some isFirst

theorem first?_none :
    first? definitions text = none ↔ ∀ definition ∈ definitions, ¬definition.name <+: text := by
  simp [first?, List.find?_eq_none]

theorem first?_append (definitions later : List Definition) (text : Text) :
    first? (definitions ++ later) text = (first? definitions text).or (first? later text) :=
  List.find?_append

/-- In an order in which no name begins a later one, the first name that is found is the longest. -/
theorem longest?_eq_first? {sequence : List Definition}
    (order : sequence.Pairwise fun first second => ¬first.name <+: second.name)
    (same : ∀ definition, definition ∈ definitions ↔ definition ∈ sequence) :
    longest? definitions = first? sequence := by
  funext text
  cases isFirst : first? sequence text with
  | none =>
      rw [longest?, List.argmax_eq_none, List.filter_eq_nil_iff]
      exact fun definition member begins => first?_none.mp isFirst definition
        ((same definition).mp member) (List.isPrefixOf_iff_prefix.mp begins)
  | some definition =>
      obtain ⟨begins, early, late, rfl, elsewhere⟩ := first?_some isFirst
      have among : definition ∈ definitions.filter fun definition => definition.name.isPrefixOf text :=
        List.mem_filter.mpr ⟨(same definition).mpr (first?_mem isFirst),
          List.isPrefixOf_iff_prefix.mpr begins⟩
      cases isLongest : longest? definitions text with
      | none =>
          rw [List.argmax_eq_none.mp isLongest] at among
          cases among
      | some other =>
          obtain ⟨member, otherBegins⟩ := List.mem_filter.mp (List.argmax_mem isLongest)
          rw [List.isPrefixOf_iff_prefix] at otherBegins
          have most := List.le_of_mem_argmax among isLongest
          have begun := List.prefix_of_prefix_length_le begins otherBegins most
          have behind := (List.pairwise_cons.mp (List.pairwise_append.mp order).2.1).1
          rcases List.mem_append.mp ((same other).mp member) with isEarly | isLate
          · exact absurd otherBegins (elsewhere other isEarly)
          · rcases List.mem_cons.mp isLate with rfl | isLater
            · rfl
            · exact absurd begun (behind other isLater)

theorem word_lacks {word : Text} (isWord : word.all isWord = true) : '$' ∉ word := fun member =>
  absurd (List.all_eq_true.mp isWord '$' member) (by decide)

theorem replaceTogetherFrom_skip (found : Text → Option Definition) (skip : Nat) (text : Text) :
    replaceTogetherFrom found skip text = replaceTogether found (text.drop skip) := by
  induction text generalizing skip with
  | nil => simp [replaceTogether, replaceTogetherFrom]
  | cons character rest inductionHypothesis =>
      cases skip with
      | zero => rfl
      | succ skip => exact inductionHypothesis skip

theorem scanFrom_skip (found : Text → Option Definition) (skip : Nat) (text : Text) :
    scanFrom found skip text = scanFrom found 0 (text.drop skip) := by
  induction text generalizing skip with
  | nil => simp [scanFrom]
  | cons character rest inductionHypothesis =>
      cases skip with
      | zero => rfl
      | succ skip => exact inductionHypothesis skip

theorem replaceTogether_cons {found : Text → Option Definition} {character : Char} {rest : Text}
    (none : found (character :: rest) = none) :
    replaceTogether found (character :: rest) = character :: replaceTogether found rest := by
  rw [replaceTogether, replaceTogetherFrom, none, replaceTogether]

theorem scanFrom_other (found : Text → Option Definition) {character : Char}
    (differs : character ≠ '$') (rest : Text) :
    scanFrom found 0 (character :: rest) = character :: scanFrom found 0 rest := by
  rw [scanFrom, if_neg differs]

theorem scanFrom_append (found : Text → Option Definition) {head : Text} (absent : '$' ∉ head)
    (rest : Text) : scanFrom found 0 (head ++ rest) = head ++ scanFrom found 0 rest := by
  induction head with
  | nil => rfl
  | cons character head inductionHypothesis =>
      rw [List.mem_cons, not_or] at absent
      rw [List.cons_append, scanFrom_other found (Ne.symm absent.1), inductionHypothesis absent.2,
        List.cons_append]

section

variable (named : Named definitions)
include named

theorem first?_other {character : Char} (differs : character ≠ '$') (rest : Text) :
    first? definitions (character :: rest) = none := by
  rw [first?_none]
  intro definition member begins
  obtain ⟨word, isName, -⟩ := named definition member
  rw [isName] at begins
  exact differs (List.cons_prefix_cons.mp begins).1.symm

theorem replaceTogether_found {rest : Text}
    (isFirst : first? definitions (definition.name ++ rest) = some definition) :
    replaceTogether (first? definitions) (definition.name ++ rest) =
      definition.value ++ replaceTogether (first? definitions) rest := by
  obtain ⟨word, isName, -⟩ := named definition (first?_mem isFirst)
  rw [isName, List.cons_append] at isFirst ⊢
  rw [replaceTogether, replaceTogetherFrom, isFirst]
  dsimp only
  rw [isName, List.length_cons, Nat.add_sub_cancel, replaceTogetherFrom_skip, List.drop_left]

theorem scanFrom_found {rest : Text}
    (isFirst : first? definitions (definition.name ++ rest) = some definition) :
    scanFrom (first? definitions) 0 (definition.name ++ rest) =
      definition.value ++ scanFrom (first? definitions) 0 rest := by
  obtain ⟨word, isName, -⟩ := named definition (first?_mem isFirst)
  rw [isName, List.cons_append] at isFirst ⊢
  rw [scanFrom, if_pos rfl, isFirst]
  dsimp only
  rw [isName, List.length_cons, Nat.add_sub_cancel, scanFrom_skip, List.drop_left]

theorem replaceTogether_append {head : Text} (absent : '$' ∉ head) (rest : Text) :
    replaceTogether (first? definitions) (head ++ rest) =
      head ++ replaceTogether (first? definitions) rest := by
  induction head with
  | nil => rfl
  | cons character head inductionHypothesis =>
      rw [List.mem_cons, not_or] at absent
      rw [List.cons_append, replaceTogether_cons (first?_other named (Ne.symm absent.1) _),
        inductionHypothesis absent.2, List.cons_append]

theorem Named.nonempty : ∀ definition ∈ definitions, definition.name ≠ [] := by
  intro definition member
  obtain ⟨word, isName, -⟩ := named definition member
  simp [isName]

omit named in
/-- A text is nothing, a name that is found and another text, or a character and another text. -/
@[elab_as_elim]
theorem first?_induction {motive : Text → Prop} (nonempty : ∀ definition ∈ definitions, definition.name ≠ [])
    (nil : motive [])
    (found : ∀ definition rest, first? definitions (definition.name ++ rest) = some definition →
      motive rest → motive (definition.name ++ rest))
    (plain : ∀ character rest, first? definitions (character :: rest) = none → motive rest →
      motive (character :: rest)) (text : Text) : motive text := by
  induction isLength : text.length using Nat.strong_induction_on generalizing text with
  | h length inductionHypothesis =>
      subst isLength
      cases text with
      | nil => exact nil
      | cons character rest =>
          cases isFirst : first? definitions (character :: rest) with
          | none => exact plain _ _ isFirst (inductionHypothesis _ (Nat.lt_succ_self _) rest rfl)
          | some definition =>
              obtain ⟨⟨later, same⟩, -⟩ := first?_some isFirst
              have positive := List.length_pos_iff.mpr (nonempty definition (first?_mem isFirst))
              have shorter : later.length < (character :: rest).length := by
                rw [← same, List.length_append]
                omega
              have holds := inductionHypothesis _ shorter later rfl
              rw [← same] at isFirst ⊢
              exact found definition later isFirst holds

end

end

theorem Named.of_append {definitions later : List Definition} (named : Named (definitions ++ later)) :
    Named definitions := fun definition member => named definition (List.mem_append_left _ member)

section

variable {done later : List Definition} (named : Named (done ++ later)) (plain : Plain (done ++ later))
include named plain

/-- What has been replaced in front of the next dollar sign stays when more names are replaced. -/
theorem replaceTogether_begins (text : Text) :
    (replaceTogether (first? done) text).takeWhile (· != '$') <+:
      replaceTogether (first? (done ++ later)) text := by
  induction text using first?_induction named.nonempty with
  | nil => exact List.nil_prefix
  | found definition rest isFirst inductionHypothesis =>
      rw [replaceTogether_found named isFirst]
      cases isDone : first? done (definition.name ++ rest) with
      | none =>
          obtain ⟨word, isName, -⟩ := named definition (first?_mem isFirst)
          rw [isName, List.cons_append] at isDone ⊢
          rw [replaceTogether_cons isDone]
          exact List.nil_prefix
      | some other =>
          rw [first?_append, isDone, Option.some_or] at isFirst
          cases isFirst
          have lacks : ∀ character ∈ definition.value, (character != '$') = true := by
            intro character member
            exact bne_iff_ne.mpr fun same =>
              plain definition (List.mem_append_left _ (first?_mem isDone)) (same ▸ member)
          rw [replaceTogether_found named.of_append isDone, List.takeWhile_append_of_pos lacks]
          exact (List.prefix_append_right_inj _).mpr inductionHypothesis
  | plain character rest isFirst inductionHypothesis =>
      have isDone : first? done (character :: rest) = none := by
        rw [first?_append, Option.or_eq_none_iff] at isFirst
        exact isFirst.1
      rw [replaceTogether_cons isDone, replaceTogether_cons isFirst]
      by_cases isSign : character = '$'
      · subst isSign
        exact List.nil_prefix
      · rw [List.takeWhile_cons, if_pos (bne_iff_ne.mpr isSign)]
        exact List.cons_prefix_cons.mpr ⟨rfl, inductionHypothesis⟩

end

section

variable {found : Text → Option Definition} {definitions : List Definition}

theorem isApart_cons {character : Char} {rest : Text}
    (apart : isApart found definitions (character :: rest) = true) :
    isApart found definitions rest = true := (Bool.and_eq_true_iff.mp apart).2

theorem isApart_append {head rest : Text}
    (apart : isApart found definitions (head ++ rest) = true) :
    isApart found definitions rest = true := by
  induction head with
  | nil => exact apart
  | cons character head inductionHypothesis =>
      exact inductionHypothesis (isApart_cons apart)

theorem not_continues_of_isApart {rest : Text}
    (apart : isApart found definitions ('$' :: rest) = true) :
    continues found definitions (rest.takeWhile isWord) (rest.dropWhile isWord) = false := by
  rw [isApart, Bool.and_eq_true] at apart
  simpa using apart.1

/-- The order of the definitions does not matter. -/
theorem isApart_congr {sequence : List Definition}
    (same : ∀ definition, definition ∈ definitions ↔ definition ∈ sequence) (text : Text) :
    isApart found definitions text = isApart found sequence text := by
  have any (holds : Definition → Bool) : definitions.any holds = sequence.any holds := by
    rw [Bool.eq_iff_iff]
    simp only [List.any_eq_true, same]
  induction text with
  | nil => rfl
  | cons character rest inductionHypothesis =>
      rw [isApart, isApart, continues, continues, any, inductionHypothesis]

variable {word after : Text} (apart : continues found definitions word after = false)
  (isFound : (found after).isSome = true)
include apart isFound

/-- No defined name is spelled out across the border of an inserted value. -/
theorem not_spelled {definition : Definition} (member : definition ∈ definitions) {character : Char}
    {rest : Text} (isName : definition.name = '$' :: word ++ character :: rest) :
    ¬character :: rest <+: replaceTogether found after := by
  intro spelled
  rw [continues, isFound, Bool.true_and, Bool.or_eq_false_iff, List.any_eq_false] at apart
  have isRest : Text.after? definition.name ('$' :: word) = some (character :: rest) :=
    List.isPrefixOf?_eq_some_iff_append_eq.mpr isName.symm
  have elsewhere := apart.1 definition member
  rw [isRest] at elsewhere
  exact elsewhere (List.isPrefixOf_iff_prefix.mpr spelled)

/-- A name that is not defined ends in front of the inserted value. -/
theorem head_of_undefined (undefined : found ('$' :: word) = none) :
    (replaceTogether found after).head?.any isWord = false := by
  rw [continues, isFound, Bool.true_and, Bool.or_eq_false_iff, undefined] at apart
  simpa using apart.2

end

theorem prefix_takeWhile {p : Char → Bool} {beginning text : Text} (begins : beginning <+: text)
    (holds : ∀ character ∈ beginning, p character = true) : beginning <+: text.takeWhile p := by
  obtain ⟨rest, rfl⟩ := begins
  rw [List.takeWhile_append_of_pos holds]
  exact List.prefix_append _ _

/-- Only a value that is inserted behind a word can go on with it. -/
theorem found_of_head {definitions : List Definition} {rest : Text}
    (goesOn : (replaceTogether (first? definitions) (rest.dropWhile isWord)).head?.any isWord = true) :
    (first? definitions (rest.dropWhile isWord)).isSome = true := by
  cases isFirst : first? definitions (rest.dropWhile isWord) with
  | some definition => rfl
  | none =>
      have ends := List.head?_dropWhile_not isWord rest
      cases isAfter : rest.dropWhile isWord with
      | nil =>
          rw [isAfter] at goesOn
          cases goesOn
      | cons character others =>
          rw [isAfter] at goesOn isFirst ends
          rw [replaceTogether_cons isFirst] at goesOn
          simp_all

/-- Behind a name that is not defined, no value is inserted that goes on with it. -/
theorem not_continued {definitions : List Definition} {rest : Text}
    (apart : isApart (first? definitions) definitions ('$' :: rest) = true)
    (undefined : first? definitions ('$' :: rest) = none) :
    (replaceTogether (first? definitions) (rest.dropWhile isWord)).head?.any isWord = false := by
  refine Bool.eq_false_iff.mpr fun goesOn => ?_
  have isNone : first? definitions ('$' :: rest.takeWhile isWord) = none :=
    first?_none.mpr fun definition member begins => first?_none.mp undefined definition member
      (begins.trans (List.cons_prefix_cons.mpr ⟨rfl, List.takeWhile_prefix _⟩))
  exact Bool.false_ne_true ((head_of_undefined (not_continues_of_isApart apart)
    (found_of_head goesOn) isNone).symm.trans goesOn)

section

variable {done later : List Definition} {next : Definition}
  (named : Named (done ++ next :: later)) (plain : Plain (done ++ next :: later))
include named plain

/-- A name that is not in the text does not come up when others are replaced. -/
theorem not_begun {rest : Text}
    (apart : isApart (first? (done ++ next :: later)) (done ++ next :: later) ('$' :: rest) = true)
    (elsewhere : ¬next.name <+: '$' :: rest) :
    ¬next.name <+: '$' :: replaceTogether (first? done) rest := by
  have isNext : next ∈ done ++ next :: later := by simp
  obtain ⟨name, isName, areWord⟩ := named next isNext
  have split := List.takeWhile_append_dropWhile (p := isWord) (l := rest)
  rw [isName, List.cons_prefix_cons] at elsewhere ⊢
  rintro ⟨-, begins⟩
  have absent : ¬name <+: rest := fun begun => elsewhere ⟨rfl, begun⟩
  have lacks : '$' ∉ rest.takeWhile isWord := word_lacks List.all_takeWhile
  rw [← split, replaceTogether_append named.of_append lacks] at begins
  have longer : rest.takeWhile isWord <+: name :=
    (List.prefix_or_prefix_of_prefix begins (List.prefix_append _ _)).resolve_left
      fun short => absent (short.trans (List.takeWhile_prefix _))
  obtain ⟨others, rfl⟩ := longer
  rw [List.prefix_append_right_inj] at begins
  cases others with
  | nil => exact absent (by simpa using List.takeWhile_prefix isWord)
  | cons character tail =>
      have areOthers : ∀ other ∈ character :: tail, isWord other = true := fun other member =>
        List.all_eq_true.mp areWord other (List.mem_append_right _ member)
      have goesOn : (replaceTogether (first? done) (rest.dropWhile isWord)).head?.any isWord =
          true := by
        obtain ⟨behind, same⟩ := begins
        rw [← same]
        exact areOthers character List.mem_cons_self
      have isFound : (first? (done ++ next :: later) (rest.dropWhile isWord)).isSome = true := by
        rw [first?_append, Option.isSome_or, found_of_head goesOn, Bool.true_or]
      have undollared := prefix_takeWhile begins (p := (· != '$')) fun other member =>
        bne_iff_ne.mpr fun same => absurd (areOthers other member) (same ▸ by decide)
      exact not_spelled (not_continues_of_isApart apart) isFound isNext isName
        (undollared.trans (replaceTogether_begins named plain _))

/-- After the names in front of it have been replaced, one more name is replaced. -/
theorem replaceAll_together {text : Text}
    (apart : isApart (first? (done ++ next :: later)) (done ++ next :: later) text = true) :
    replaceAll (replaceTogether (first? done) text) next.name next.value =
      replaceTogether (first? (done ++ [next])) text := by
  have isNext : next ∈ done ++ next :: later := by simp
  have isSequence : done ++ next :: later = (done ++ [next]) ++ later := by simp
  have namedNext : Named (done ++ [next]) := (isSequence ▸ named).of_append
  obtain ⟨name, isName, areWord⟩ := named next isNext
  induction text using first?_induction namedNext.nonempty with
  | nil => rfl
  | found definition rest isFirst inductionHypothesis =>
      have replaced := inductionHypothesis (isApart_append apart)
      rw [replaceTogether_found namedNext isFirst]
      rw [first?_append] at isFirst
      cases isDone : first? done (definition.name ++ rest) with
      | some other =>
          rw [isDone, Option.some_or] at isFirst
          cases isFirst
          have lacks := plain definition (List.mem_append_left _ (first?_mem isDone))
          rw [replaceTogether_found named.of_append isDone, isName, replaceAll_append lacks, ← isName,
            replaced]
      | none =>
          rw [isDone, Option.none_or] at isFirst
          obtain rfl := List.mem_singleton.mp (first?_mem isFirst)
          have copied : replaceTogether (first? done) (definition.name ++ rest) =
              definition.name ++ replaceTogether (first? done) rest := by
            rw [isName, List.cons_append] at isDone ⊢
            rw [replaceTogether_cons isDone, replaceTogether_append named.of_append (word_lacks areWord),
              List.cons_append]
          rw [copied, replaceAll_mark (named.nonempty definition isNext), replaced]
  | plain character rest isFirst inductionHypothesis =>
      have isNone := first?_none.mp isFirst
      have isDone : first? done (character :: rest) = none :=
        first?_none.mpr fun definition member => isNone definition (List.mem_append_left _ member)
      have replaced := inductionHypothesis (isApart_cons apart)
      rw [replaceTogether_cons isFirst, replaceTogether_cons isDone, replaceAll_cons, replaced]
      by_cases isSign : character = '$'
      · subst isSign
        exact not_begun named plain apart (isNone next (by simp))
      · rw [isName, List.cons_prefix_cons]
        exact fun begins => isSign begins.1.symm

end

theorem replaceTogether_nil (text : Text) : replaceTogether (first? []) text = text := by
  induction text with
  | nil => rfl
  | cons character rest inductionHypothesis =>
      rw [replaceTogether_cons rfl, inductionHypothesis]

/-- The induction is on the names that are still to be replaced. -/
theorem foldl_together {done later : List Definition} (named : Named (done ++ later))
    (plain : Plain (done ++ later)) {text : Text}
    (apart : isApart (first? (done ++ later)) (done ++ later) text = true) :
    later.foldl (fun current next => replaceAll current next.name next.value)
        (replaceTogether (first? done) text) =
      replaceTogether (first? (done ++ later)) text := by
  induction later generalizing done with
  | nil => rw [List.append_nil, List.foldl_nil]
  | cons next later inductionHypothesis =>
      rw [List.foldl_cons, replaceAll_together named plain apart]
      rw [List.append_cons done next later] at named plain apart ⊢
      exact inductionHypothesis named plain apart

theorem foldl_eq_replaceTogether {definitions : List Definition} (named : Named definitions)
    (plain : Plain definitions) {text : Text}
    (apart : isApart (first? definitions) definitions text = true) :
    definitions.foldl (fun current next => replaceAll current next.name next.value) text =
      replaceTogether (first? definitions) text := by
  have folded := @foldl_together [] definitions named plain text apart
  rwa [replaceTogether_nil] at folded

end Definition

namespace Store

theorem dropNames_append {head : Text} (absent : '$' ∉ head) (rest : Text) :
    dropNames (head ++ rest) = head ++ dropNames rest := by
  induction head with
  | nil => rfl
  | cons character head inductionHypothesis =>
      rw [List.mem_cons, not_or] at absent
      have other : (character == '$') = false := beq_false_of_ne (Ne.symm absent.1)
      rw [List.cons_append, dropNames, dropNamesFrom, Bool.false_and, other, Bool.false_and, if_neg,
        if_neg, List.cons_append]
      · exact congrArg _ (inductionHypothesis absent.2)
      · exact Bool.false_ne_true
      · exact Bool.false_ne_true

theorem dropNames_other {character : Char} (differs : character ≠ '$') (rest : Text) :
    dropNames (character :: rest) = character :: dropNames rest := by
  have absent : '$' ∉ [character] := by simpa using Ne.symm differs
  exact dropNames_append absent rest

/-- A name is left out up to its end. -/
theorem dropNamesFrom_word {word rest : Text} (areWord : word.all isWord = true)
    (ends : rest.head?.any isWord = false) :
    dropNamesFrom true (word ++ rest) = dropNames rest := by
  induction word with
  | nil =>
      cases rest with
      | nil => rfl
      | cons character others =>
          have notWord : isWord character = false := ends
          simp [dropNames, dropNamesFrom, notWord]
  | cons character word inductionHypothesis =>
      rw [List.all_cons, Bool.and_eq_true] at areWord
      rw [List.cons_append, dropNamesFrom, if_pos (by rw [areWord.1, Bool.and_self])]
      exact inductionHypothesis areWord.2

theorem dropNames_name {character : Char} {word rest : Text}
    (areWord : (character :: word).all isWord = true) (ends : rest.head?.any isWord = false) :
    dropNames ('$' :: (character :: word ++ rest)) = dropNames rest := by
  have isFirst : isWord character = true := List.all_eq_true.mp areWord _ List.mem_cons_self
  rw [dropNames, dropNamesFrom, Bool.false_and, if_neg Bool.false_ne_true, if_pos (by simp [isFirst]),
    dropNamesFrom_word areWord ends]

theorem dropNames_sign {rest : Text} (ends : rest.head?.any isWord = false) :
    dropNames ('$' :: rest) = '$' :: dropNames rest := by
  rw [dropNames, dropNamesFrom, Bool.false_and, if_neg Bool.false_ne_true, if_neg (by simp [ends])]
  rfl

end Store

namespace Definition
open Store

/-- When all defined names have been replaced and the other ones are left out, the text has been
scanned. -/
theorem dropNames_together {definitions : List Definition} (named : Named definitions)
    (plain : Plain definitions) {text : Text}
    (apart : isApart (first? definitions) definitions text = true) :
    dropNames (replaceTogether (first? definitions) text) = scanFrom (first? definitions) 0 text := by
  induction text using first?_induction named.nonempty with
  | nil => rfl
  | found definition rest isFirst inductionHypothesis =>
      rw [replaceTogether_found named isFirst, scanFrom_found named isFirst,
        dropNames_append (plain definition (first?_mem isFirst)),
        inductionHypothesis (isApart_append apart)]
  | plain character rest isFirst inductionHypothesis =>
      have scanned := inductionHypothesis (isApart_cons apart)
      rw [replaceTogether_cons isFirst]
      by_cases isSign : character = '$'
      swap
      · rw [scanFrom_other _ isSign, ← scanned, dropNames_other isSign]
      subst isSign
      have split := List.takeWhile_append_dropWhile (p := isWord) (l := rest)
      have areWord : (rest.takeWhile isWord).all isWord = true := List.all_takeWhile
      have ends := not_continued apart isFirst
      rw [scanFrom, if_pos rfl, isFirst]
      dsimp only
      cases isTaken : rest.takeWhile isWord with
      | nil =>
          rw [isTaken, List.nil_append] at split
          rw [split] at ends
          rw [dropNames_sign ends, scanned]
      | cons first others =>
          rw [isTaken] at split areWord
          have lacks : '$' ∉ first :: others := word_lacks areWord
          have replaced := replaceTogether_append named lacks (rest.dropWhile isWord)
          have copied := scanFrom_append (first? definitions) lacks (rest.dropWhile isWord)
          have dropped : rest.drop (first :: others).length = rest.dropWhile isWord := by
            conv_lhs => rw [← split]
            exact List.drop_left
          rw [split] at replaced copied
          rw [replaced, dropNames_append lacks, copied] at scanned
          dsimp only
          rw [replaced, dropNames_name areWord ends, scanFrom_skip, dropped]
          exact List.append_cancel_left scanned

end Definition

namespace Store
open Definition

/-- The variables and the date, with the texts that stand for them. -/
def definitions (store : Store) (masked : Bool) (now : Text) : List Definition :=
  ⟨date, now⟩ :: store.values.map fun entry => ⟨entry.1, replacement masked entry⟩

/-- The definitions in the order in which they are replaced. -/
def sequence (store : Store) (masked : Bool) (now : Text) : List Definition :=
  store.replacements.map (fun entry => ⟨entry.1, replacement masked entry⟩) ++ [⟨date, now⟩]

variable {store : Store} {masked : Bool} {now text : Text}

theorem mem_sequence {definition : Definition} :
    definition ∈ store.sequence masked now ↔ definition ∈ store.definitions masked now := by
  simp only [sequence, definitions, List.mem_append, List.mem_map, List.mem_cons, List.not_mem_nil,
    or_false, mem_replacements]
  exact or_comm

theorem substitute_eq_foldl (store : Store) (masked : Bool) (now text : Text) :
    store.substitute masked now text = replaceAll (dropNames
      ((store.sequence masked now).foldl (fun current next => replaceAll current next.name next.value)
        (replaceAll text "\\$" escapedDollar))) escapedDollar "$" := by
  rw [sequence, List.foldl_append, List.foldl_map]
  rfl

theorem foldl_lacks {c : Char} {definitions : List Definition}
    (values : ∀ definition ∈ definitions, c ∉ definition.value) {text : Text} (lacks : c ∉ text) :
    c ∉ definitions.foldl (fun current next => replaceAll current next.name next.value) text := by
  induction definitions generalizing text with
  | nil => exact lacks
  | cons next later inductionHypothesis =>
      rw [List.forall_mem_cons] at values
      exact inductionHypothesis values.2 (replaceAll_lacks values.1 lacks)

theorem WellNamed.isName (named : store.WellNamed) :
    ∀ entry ∈ store.values, isName entry.1 = true := fun entry member =>
  (Bool.and_eq_true_iff.mp (named.names entry member)).1

theorem sequence_isName (named : ∀ entry ∈ store.values, isName entry.1 = true) (masked : Bool)
    (now : Text) : ∀ definition ∈ store.sequence masked now, isName definition.name = true := by
  intro definition member
  rcases List.mem_append.mp member with isVariable | isDate
  · obtain ⟨entry, isEntry, rfl⟩ := List.mem_map.mp isVariable
    exact named entry (mem_replacements.mp isEntry)
  · obtain rfl := List.mem_singleton.mp isDate
    exact (by decide : Variable.isName date = true)

theorem WellNamed.named (named : store.WellNamed) (masked : Bool) (now : Text) :
    Named (store.sequence masked now) := by
  intro definition member
  obtain ⟨first, word, isName, areWord⟩ :=
    exists_of_isName (sequence_isName named.isName masked now definition member)
  exact ⟨first :: word, isName, areWord⟩

/-- No name begins one that is replaced after it. -/
theorem WellNamed.order (named : store.WellNamed) (masked : Bool) (now : Text) :
    (store.sequence masked now).Pairwise fun first second => ¬first.name <+: second.name := by
  rw [sequence, List.pairwise_append, List.pairwise_map]
  refine ⟨named.replacements_pairwise.imp fun before => not_prefix_of_replacedBefore before,
    List.pairwise_singleton _ _, fun definition member other isDate begins => ?_⟩
  obtain ⟨entry, isEntry, rfl⟩ := List.mem_map.mp member
  obtain rfl := List.mem_singleton.mp isDate
  have storable := named.names entry (mem_replacements.mp isEntry)
  rw [isStorable, Bool.and_eq_true, Bool.not_eq_true'] at storable
  exact Bool.false_ne_true (storable.2.symm.trans (List.isPrefixOf_iff_prefix.mpr begins))

/-- The character is in no value of a variable and not in the date. -/
def ValuesLack (c : Char) (store : Store) (now : Text) : Prop :=
  (∀ entry ∈ store.values, c ∉ entry.2.shown) ∧ c ∉ now

theorem ValuesLack.sequence {c : Char} (lacks : store.ValuesLack c now) (notMask : c ∉ Masking.mask) :
    ∀ definition ∈ store.sequence masked now, c ∉ definition.value := by
  intro definition member
  rcases List.mem_append.mp member with isVariable | isDate
  · obtain ⟨entry, isEntry, rfl⟩ := List.mem_map.mp isVariable
    simp only [replacement]
    split
    · exact notMask
    · exact lacks.1 entry (mem_replacements.mp isEntry)
  · obtain rfl := List.mem_singleton.mp isDate
    exact lacks.2

/-- No value of a variable that the text names directly behind another name continues that name. -/
def isApart (store : Store) (masked : Bool) (now text : Text) : Bool :=
  Definition.isApart (longest? (store.definitions masked now)) (store.definitions masked now) text

theorem substitute_eq_scan (named : store.WellNamed) (noSigns : store.ValuesLack '$' now)
    (noMarks : store.ValuesLack '\x00' now) (unescaped : ¬"\\$".toList <:+: text)
    (unmarked : '\x00' ∉ text) (apart : store.isApart masked now text = true) :
    store.substitute masked now text = scan (store.definitions masked now) text := by
  have same : ∀ definition, definition ∈ store.definitions masked now ↔
      definition ∈ store.sequence masked now := fun _ => mem_sequence.symm
  have longest := longest?_eq_first? (named.order masked now) same
  have plain : Plain (store.sequence masked now) := noSigns.sequence (by decide)
  have values : ∀ definition ∈ store.sequence masked now, '\x00' ∉ definition.value :=
    noMarks.sequence (by decide)
  have absent : ¬escapedDollar <:+: dropNames ((store.sequence masked now).foldl
      (fun current next => replaceAll current next.name next.value) text) := fun inside =>
    dropNamesFrom_lacks false (foldl_lacks values unmarked) (inside.subset (by decide))
  rw [isApart, longest, isApart_congr same] at apart
  rw [substitute_eq_foldl, replaceAll_of_absent unescaped, replaceAll_of_absent absent,
    foldl_eq_replaceTogether (named.named masked now) plain apart,
    dropNames_together (named.named masked now) plain apart, scan, longest]

/-- Where no inserted value continues the name in front of it, the variables are replaced as in one
scan of the text from left to right; for a text that is shown, the mask stands for the password. -/
theorem expand_eq_scan (named : store.WellNamed) (noSigns : store.ValuesLack '$' now)
    (noMarks : store.ValuesLack '\x00' now) (unescaped : ¬"\\$".toList <:+: text)
    (unmarked : '\x00' ∉ text) :
    (store.isApart false now text = true →
        store.expandSecret now text = scan (store.definitions false now) text) ∧
      (store.isApart true now text = true →
        store.expand now text = scan (store.definitions true now) text) :=
  ⟨substitute_eq_scan named noSigns noMarks unescaped unmarked,
    substitute_eq_scan named noSigns noMarks unescaped unmarked⟩

/-- This store has two variables, and the name of one of them begins that of the other. -/
def greeting : Store :=
  ((ofDefaults {}).put "$t" (.text "hello")).put "$tango" (.text "bye")

theorem greeting_wellNamed : greeting.WellNamed :=
  ((ofDefaults_wellNamed {}).put (by decide) _).put (by decide) _

/-- Two values stand side by side, in front of a name that is not defined. -/
theorem expand_eq_scan_greeting :
    greeting.expandSecret "2024" "$t$tango $nothere/$_DATE" = "hellobye /2024".toList ∧
      scan (greeting.definitions false "2024") "$t$tango $nothere/$_DATE" = "hellobye /2024".toList ∧
      greeting.expand "2024" "$t$PASS" = scan (greeting.definitions true "2024") "$t$PASS" := by
  have noSigns : greeting.ValuesLack '$' "2024" := ⟨by decide, by decide⟩
  have noMarks : greeting.ValuesLack '\x00' "2024" := ⟨by decide, by decide⟩
  have secret : greeting.expandSecret "2024" "$t$tango $nothere/$_DATE" =
      scan (greeting.definitions false "2024") "$t$tango $nothere/$_DATE" :=
    (expand_eq_scan greeting_wellNamed noSigns noMarks (by decide) (by decide)).1
      (by decide)
  have shown : greeting.expand "2024" "$t$PASS" = scan (greeting.definitions true "2024") "$t$PASS" :=
    (expand_eq_scan greeting_wellNamed noSigns noMarks (by decide) (by decide)).2
      (by decide)
  have scanned : scan (greeting.definitions false "2024") "$t$tango $nothere/$_DATE" =
      "hellobye /2024".toList := by decide
  exact ⟨secret.trans scanned, scanned, shown⟩

/-- The value behind a name that is not defined is left out with that name. -/
theorem expandSecret_ne_scan :
    greeting.WellNamed ∧
      greeting.ValuesLack '$' "2024" ∧ greeting.ValuesLack '\\' "2024" ∧
      greeting.ValuesLack '\x00' "2024" ∧
      (∀ mark ∈ ["\\$".toList, "$$".toList, "\x00".toList], ¬mark <:+: "$nothere$t".toList) ∧
      greeting.expandSecret "2024" "$nothere$t" = [] ∧
      scan (greeting.definitions false "2024") "$nothere$t" = "hello".toList :=
  ⟨greeting_wellNamed, ⟨by decide, by decide⟩, ⟨by decide, by decide⟩, ⟨by decide, by decide⟩, by decide,
    by decide, by decide⟩

end Store

end ManagementShell

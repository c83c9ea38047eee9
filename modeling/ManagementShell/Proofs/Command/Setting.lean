import ManagementShell.Command.Reader
import ManagementShell.Proofs.Text.Blank
import ManagementShell.Proofs.Text.Cut
import ManagementShell.Proofs.Text.Words

/-
This file shows how lines are read that set a variable to a plain value.
-/

namespace ManagementShell
open Text

namespace Text

/-- The character has no meaning of its own in a line. -/
def isPlain (character : Char) : Bool :=
  !(isBlank character || character == '\'' || character == '"' || character == '\\')

/-- Every character of the text is plain. -/
def IsPlain (text : Text) : Prop := ∀ character ∈ text, isPlain character = true

instance (text : Text) : Decidable (IsPlain text) :=
  decidable_of_iff (text.all isPlain = true) List.all_eq_true

theorem isBlank_of_isPlain {character : Char} (plain : isPlain character = true) :
    isBlank character = false := by
  simp only [isPlain, Bool.not_eq_true', Bool.or_eq_false_iff] at plain
  exact plain.1.1.1

theorem isSeparator_of_isPlain {character : Char} (plain : isPlain character = true) :
    isSeparator character = false := by
  have visible := isBlank_of_isPlain plain
  unfold isSeparator
  by_contra separates
  rw [Bool.not_eq_false, Bool.or_eq_true, Bool.or_eq_true, beq_iff_eq, beq_iff_eq, beq_iff_eq]
    at separates
  rcases separates with (rfl | rfl) | rfl
  · cases visible
  · cases visible
  · cases visible

theorem readCharacter_plain {character : Char} (plain : isPlain character = true) (word : Text) :
    readCharacter word character .plain = (false, .plain, word ++ [character]) := by
  have separates := isSeparator_of_isPlain plain
  simp only [isPlain, Bool.not_eq_true', Bool.or_eq_false_iff, beq_eq_false_iff_ne] at plain
  simp [readCharacter, separates, plain]

/-- A word that has begun goes on up to the next space. -/
theorem wordsFrom_plain {text : Text} (plain : IsPlain text) (word rest : Text) :
    wordsFrom .plain word (text ++ ' ' :: rest) =
      (wordsFrom .between [] rest).map ((word ++ text) :: ·) := by
  induction text generalizing word with
  | nil => simp [wordsFrom, readCharacter, isSeparator]
  | cons character text inductionHypothesis =>
      rw [IsPlain, List.forall_mem_cons] at plain
      rw [List.cons_append, wordsFrom, readCharacter_plain plain.1]
      simp [inductionHypothesis plain.2]

theorem wordsFrom_plain_end {text : Text} (plain : IsPlain text) (word : Text) :
    wordsFrom .plain word text = some [word ++ text] := by
  induction text generalizing word with
  | nil => simp [wordsFrom, wordsAtEnd]
  | cons character text inductionHypothesis =>
      rw [IsPlain, List.forall_mem_cons] at plain
      rw [wordsFrom, readCharacter_plain plain.1]
      simp [inductionHypothesis plain.2]

/-- A plain word that begins with no number sign, and so is no comment. -/
structure IsWord (word : Text) : Prop where
  plain : IsPlain word
  begins : ∃ first rest, word = first :: rest ∧ first ≠ '#'

instance (word : Text) : Decidable (IsWord word) :=
  decidable_of_iff (IsPlain word ∧ word ≠ [] ∧ word.head? ≠ some '#') <| by
    constructor
    · rintro ⟨plain, nonempty, noComment⟩
      obtain ⟨first, rest, rfl⟩ := List.exists_cons_of_ne_nil nonempty
      exact ⟨plain, first, rest, rfl, fun same => noComment (congrArg some same)⟩
    · rintro ⟨plain, first, rest, rfl, noComment⟩
      exact ⟨plain, by simp, fun same => noComment (Option.some.inj same)⟩

theorem IsWord.ne_nil {word : Text} (isWord : IsWord word) : word ≠ [] := by
  obtain ⟨-, first, rest, rfl, -⟩ := isWord
  simp

theorem IsWord.wordsFrom_eq {word : Text} (isWord : IsWord word) :
    ∃ first rest, word = first :: rest ∧ IsPlain rest ∧
      ∀ others, wordsFrom .between [] (word ++ others) = wordsFrom .plain [first] (rest ++ others) := by
  obtain ⟨plain, first, rest, rfl, noComment⟩ := isWord
  rw [IsPlain, List.forall_mem_cons] at plain
  have separates := isSeparator_of_isPlain plain.1
  have visible := plain.1
  simp only [isPlain, Bool.not_eq_true', Bool.or_eq_false_iff, beq_eq_false_iff_ne] at visible
  refine ⟨first, rest, rfl, plain.2, fun others => ?_⟩
  simp [wordsFrom, readCharacter, separates, visible, noComment]

theorem IsWord.words?_append {word : Text} (isWord : IsWord word) (rest : Text) :
    words? (word ++ ' ' :: rest) = (words? rest).map (word :: ·) := by
  obtain ⟨first, others, rfl, plain, begins⟩ := isWord.wordsFrom_eq
  rw [words?, begins, wordsFrom_plain plain]
  rfl

theorem IsWord.words?_eq {word : Text} (isWord : IsWord word) : words? word = some [word] := by
  obtain ⟨first, others, rfl, plain, begins⟩ := isWord.wordsFrom_eq
  have whole := begins []
  rw [List.append_nil, List.append_nil] at whole
  rw [words?, whole, wordsFrom_plain_end plain]
  rfl

/-- No quote is left open in a plain text. -/
theorem words?_plain {text : Text} (plain : IsPlain text) : ∃ words, words? text = some words := by
  cases text with
  | nil => exact ⟨[], rfl⟩
  | cons first rest =>
      by_cases comment : first = '#'
      · subst comment
        have sameLine : '\n' ∉ rest := fun member => by
          cases plain '\n' (.tail _ member)
        exact ⟨[], wordsFrom_comment_line sameLine⟩
      · exact ⟨_, IsWord.words?_eq ⟨plain, first, rest, rfl, comment⟩⟩

theorem IsPlain.trimmed {text : Text} (plain : IsPlain text) : Trimmed text where
  head character isHead := isBlank_of_isPlain (plain character (List.mem_of_mem_head? isHead))
  last character isLast := isBlank_of_isPlain (plain character (List.mem_of_mem_getLast? isLast))

theorem IsPlain.append {first second : Text} (plain : IsPlain first) (plainToo : IsPlain second) :
    IsPlain (first ++ second) := by
  intro character member
  exact (List.mem_append.mp member).elim (plain character) (plainToo character)

theorem isPlain_cons {character : Char} {text : Text} (plain : isPlain character = true)
    (plainToo : IsPlain text) : IsPlain (character :: text) := List.forall_mem_cons.mpr ⟨plain, plainToo⟩

end Text

namespace Command

/-- There are no quotes around a plain value. -/
theorem unquoted_plain {value : Text} (plain : IsPlain value) : unquoted value = value := by
  unfold unquoted
  refine if_neg fun quotes => ?_
  rcases quotes.2.1 with isHead | isHead
  · cases plain _ (List.mem_of_mem_head? isHead)
  · cases plain _ (List.mem_of_mem_head? isHead)

/-- A text that begins with a visible word and ends with a plain one is trimmed. -/
theorem trimmed_join {first value : Text} (isWord : IsWord first) (plain : IsPlain value)
    (nonempty : value ≠ []) : Trimmed (first ++ ' ' :: value) where
  head character isHead := by
    obtain ⟨plainFirst, begin, rest, rfl, -⟩ := isWord
    exact plainFirst.trimmed.head character isHead
  last character isLast := by
    rw [List.getLast?_append_of_ne_nil _ (List.cons_ne_nil _ _),
      List.getLast?_cons_of_ne_nil nonempty] at isLast
    exact plain.trimmed.last character isLast

theorem setKeyword_plain {name value : Text} (isName : IsWord name)
    (noOption : toLower name ≠ "/a") (plain : IsPlain value) (nonempty : value ≠ []) :
    setKeyword ("Set" ++ ' ' :: (name ++ ' ' :: value)) = .ok (.assign name value) := by
  have noSpace : ' ' ∉ name := fun member => by cases isName.plain _ member
  have after : afterSpace? ("Set" ++ ' ' :: (name ++ ' ' :: value)) = some (name ++ ' ' :: value) :=
    congrArg (Option.map Prod.snd) (cut?_append (by decide))
  have cut : cut? (name ++ ' ' :: value) " " = some (name, value) := cut?_append noSpace
  have given : name ++ ' ' :: value ≠ [] := by simp
  simp only [setKeyword, after, Option.getD_some, (trimmed_join isName plain nonempty).trim_eq,
    if_neg given, cut, if_neg noOption, plain.trimmed.trim_eq, unquoted_plain plain]

theorem isWord_set : IsWord "Set" := by decide

/-- A line that is neither a comment nor a label nor marked is a command. -/
theorem read_unmarked (isScript : Text → Bool) {text : Text} (trimmed : Trimmed text) {first : Char}
    {rest : Text} (begins : text = first :: rest) (unmarked : first ∉ ("#:-" : Text)) :
    Line.read isScript text = (Command.read isScript text).map fun command => ⟨false, command⟩ := by
  rw [Line.read.eq_def, trimmed.trim_eq]
  subst begins
  split
  · simp_all
  · simp_all
  · simp_all
  · simp_all
  · rfl

theorem trimmed_set {name value : Text} (isName : IsWord name) (plain : IsPlain value)
    (nonempty : value ≠ []) : Trimmed ("Set" ++ ' ' :: (name ++ ' ' :: value)) where
  head character isHead := by
    cases isHead
    rfl
  last character isLast := by
    rw [List.getLast?_append_of_ne_nil _ (List.cons_ne_nil _ _),
      List.getLast?_cons_of_ne_nil (by simp)] at isLast
    exact (trimmed_join isName plain nonempty).last character isLast

/-- A plain value is set with the keyword, whatever comes of it when it is split into words. -/
theorem read_set (isScript : Text → Bool) {name value : Text} (isName : IsWord name)
    (noOption : toLower name ≠ "/a") (plain : IsPlain value) (nonempty : value ≠ []) :
    Line.read isScript ("Set" ++ ' ' :: (name ++ ' ' :: value)) =
      .ok ⟨false, .assign name value⟩ := by
  have trimmed := trimmed_set isName plain nonempty
  obtain ⟨words, areWords⟩ := words?_plain plain
  have split : words? ("Set" ++ ' ' :: (name ++ ' ' :: value)) =
      some (("Set" : Text) :: name :: words) := by
    rw [isWord_set.words?_append, isName.words?_append, areWords]
    rfl
  have reads : Command.read isScript ("Set" ++ ' ' :: (name ++ ' ' :: value)) =
      .ok (.assign name value) := by
    rw [Command.read, readNested, trimmed.trim_eq, split]
    exact setKeyword_plain isName noOption plain nonempty
  rw [read_unmarked isScript trimmed rfl (by decide), reads]
  rfl

theorem setShorthand_assign {name value : Text} (noSign : '=' ∉ name)
    (noColon : name.getLast? ≠ some ':') (long : 2 ≤ name.length) (given : value ≠ []) :
    setShorthand (name ++ '=' :: value) = .ok (.assign name value) := by
  have cut : cut? (name ++ '=' :: value) "=" = some (name, value) := cut?_append noSign
  have complete : ¬(name.length < 2 ∨ value = []) := not_or.mpr ⟨Nat.not_lt.mpr long, given⟩
  rw [setShorthand, cut]
  simp only [if_neg noColon, if_neg complete]

theorem shorthand_set {isScript : Text → Bool} {rest : Text}
    (noScript : ¬(endsWith ('$' :: rest) ".win" = true ∧ isScript ('$' :: rest) = true))
    (nonempty : rest ≠ []) :
    shorthand? isScript ('$' :: rest) = (setShorthand ('$' :: rest)).map some := by
  obtain ⟨first, rest, rfl⟩ := List.exists_cons_of_ne_nil nonempty
  rw [shorthand?.eq_def, if_neg noScript]
  rfl

/-- A plain value is set with the shorthand, unless that is the path of a script. -/
theorem read_setShorthand (isScript : Text → Bool) {name value : Text} (plainName : IsPlain name)
    (begins : ∃ word, name = '$' :: word ∧ word ≠ []) (noSign : '=' ∉ name)
    (noColon : name.getLast? ≠ some ':') (plain : IsPlain value) (nonempty : value ≠ [])
    (noScript : ¬(endsWith (name ++ '=' :: value) ".win" = true ∧
      isScript (name ++ '=' :: value) = true)) :
    Line.read isScript (name ++ '=' :: value) = .ok ⟨false, .assign name value⟩ := by
  obtain ⟨word, rfl, given⟩ := begins
  have plainLine : IsPlain ('$' :: word ++ '=' :: value) :=
    plainName.append (isPlain_cons rfl plain)
  have isWord : IsWord ('$' :: word ++ '=' :: value) :=
    ⟨plainLine, '$', _, rfl, by decide⟩
  have long : 2 ≤ ('$' :: word).length := Nat.succ_le_succ (List.length_pos_iff.mpr given)
  have shorthand : shorthand? isScript ('$' :: word ++ '=' :: value) =
      .ok (some (.assign ('$' :: word) value)) := by
    rw [List.cons_append] at noScript ⊢
    rw [shorthand_set noScript (by simp), ← List.cons_append,
      setShorthand_assign noSign noColon long nonempty]
    rfl
  have reads : Command.read isScript ('$' :: word ++ '=' :: value) =
      .ok (.assign ('$' :: word) value) := by
    rw [Command.read, readNested, plainLine.trimmed.trim_eq, isWord.words?_eq]
    dsimp only
    rw [shorthand]
  rw [read_unmarked isScript plainLine.trimmed rfl (by decide), reads]
  rfl

end Command

end ManagementShell

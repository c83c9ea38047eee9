import ManagementShell.Proofs.Command.Nesting
import ManagementShell.Proofs.Command.Operators
import ManagementShell.Proofs.Command.Shape

/-
This file shows that the inner command of a command around another one is read from the words behind
the first ones, however these were quoted, and that no other command is around one.
-/

namespace ManagementShell

namespace Command
open Text

/-- What is left of a line behind some of its words has the other words. -/
theorem words?_remainder {skipped others : List Text} {text : Text} (spaced : IsSpaced text)
    (starts : StartsVisible text) (areWords : words? text = some (skipped ++ others)) :
    words? (remainder others skipped text) = some others := by
  induction skipped generalizing text with
  | nil => exact areWords
  | cons word skipped inductionHypothesis =>
      rw [remainder]
      split
      · rename_i next rest isAfter
        split
        · rename_i blank
          obtain rfl := after?_eq_some.mp isAfter
          have separates : isSeparator next = true := spaced.isSeparator (by simp) blank
          have spacedNext : IsSpaced (next :: rest) :=
            spaced.subset (List.subset_append_right _ _)
          have behind : words? (trimStart (next :: rest)) = some (skipped ++ others) := by
            rw [words?_trimStart spacedNext, words?_separator separates]
            exact words?_behind separates starts spaced.sameLine areWords
          exact inductionHypothesis (spacedNext.subset (List.dropWhile_subset _))
            (startsVisible_trimStart _) behind
        · exact words?_unwords _
      · exact words?_unwords _

/-- What a line is left with has the words behind those that were taken from it. -/
theorem words?_tail {text : Text} {words : List Text} (spaced : IsSpaced text)
    (areWords : words? text = some words) (count : Nat) :
    words? (tail text words count) = some (words.drop count) := by
  have split : words? (trimStart text) = some (words.take count ++ words.drop count) := by
    rw [words?_trimStart spaced, areWords, List.take_append_drop]
  exact words?_remainder (spaced.subset (List.dropWhile_subset _)) (startsVisible_trimStart _) split

theorem remainder_spaced {others : List Text} (spacedOthers : ∀ word ∈ others, IsSpaced word)
    {skipped : List Text} {text : Text} (spaced : IsSpaced text) (trimmed : Trimmed text) :
    IsSpaced (remainder others skipped text) ∧ Trimmed (remainder others skipped text) := by
  induction skipped generalizing text with
  | nil => exact ⟨spaced, trimmed⟩
  | cons word skipped inductionHypothesis =>
      rw [remainder]
      split
      · rename_i next rest isAfter
        split
        · obtain rfl := after?_eq_some.mp isAfter
          have isPart : trimStart (next :: rest) <:+ word ++ next :: rest :=
            (List.dropWhile_suffix _).trans (List.suffix_append _ _)
          exact inductionHypothesis (spaced.subset isPart.subset)
            ⟨startsVisible_trimStart _, trimmed.last.suffix isPart⟩
        · exact unwords_spaced spacedOthers
      · exact unwords_spaced spacedOthers

theorem tail_spaced {text : Text} {words : List Text} (spaced : IsSpaced text)
    (trimmed : Trimmed text) (areWords : words? text = some words) (count : Nat) :
    IsSpaced (tail text words count) ∧ Trimmed (tail text words count) := by
  rw [tail, trimmed.head.trimStart_eq]
  exact remainder_spaced
    (fun word member => spaced.words areWords word (List.mem_of_mem_drop member)) spaced trimmed

/-- The command is not around another one. -/
def GivesSingle (outcome : Except LineFault Command) : Prop :=
  Gives outcome (fun command => command.isNested = false) fun _ => True

section

/-- No inner command can be read, so that every command that is read is a single one. -/
def noInner (_ : Text) : Except LineFault Command := .error .tooDeep

theorem longShorthand_single (text : Text) (words : List Text) :
    Gives (longShorthand? noInner text words)
      (fun found => ∀ command ∈ found, command.isNested = false) fun _ => True := by
  unfold longShorthand?
  split <;> grind [Gives, isNested, noInner, Except.map]

theorem setKeyword_single (text : Text) : GivesSingle (setKeyword text) := by
  simp only [GivesSingle, setKeyword]
  grind [Gives, isNested]

theorem methodCall_single (isScript : Text → Bool) (words : List Text) :
    GivesSingle (methodCall isScript words) := by
  simp only [GivesSingle, methodCall]
  split
  · trivial
  · split <;> trivial

theorem keywordCommand_single (isScript : Text → Bool) (text : Text) (words : List Text) :
    GivesSingle (keywordCommand isScript noInner text words) := by
  have sets := setKeyword_single text
  have calls := methodCall_single isScript words
  simp only [GivesSingle, isNested] at sets calls
  unfold GivesSingle keywordCommand
  simp only [gives_ite, gives_bind, gives_pure, gives_error, isNested, checkCount_gives, noInner, sets, calls,
    implies_true, true_and, and_true]
  intros
  constructor
  · intro _
    split
    · rfl
    · exact ⟨⟩
  · intro _ _
    split
    · rfl
    · split
      · rfl
      · exact ⟨⟩
    · exact ⟨⟩

theorem readWords_single (isScript : Text → Bool) (text : Text) (words : List Text) :
    GivesSingle (readWords isScript noInner text words) := by
  unfold readWords
  split
  · rfl
  · rename_i word
    split
    · trivial
    · rename_i command found
      exact (gives_of_eq_ok found (shorthand_spells isScript word) command rfl).2
    · exact keywordCommand_single _ _ _
  · split
    · trivial
    · rename_i command found
      exact gives_of_eq_ok found (longShorthand_single _ _) command rfl
    · exact keywordCommand_single _ _ _

end

/-- Only what is read with an inner command is around one. -/
theorem read_single (isScript : Text → Bool) {typed : Text} (direct : nested? typed = none) :
    GivesSingle (read isScript typed) := by
  rw [read_eq]
  cases areWords : words? (trim typed) with
  | none => trivial
  | some words =>
      have noOpening : opening? words = none := by
        simpa [nested?, areWords] using direct
      dsimp only
      rw [readWords_direct _ _ noInner _ noOpening]
      exact readWords_single _ _ _

theorem opening?_count {words : List Text} {wrapper : Wrapper} {count : Nat}
    (opens : opening? words = some (wrapper, count)) : 0 < count ∧ count < words.length := by
  unfold opening? at opens
  split at opens
  · split at opens
    · cases opens
      simp
    · split at opens
      · cases opens
      · rename_i more
        have least := List.length_pos_iff.mpr more
        split at opens
        · cases opens
          simp only [List.length_cons]
          omega
        · split at opens
          · cases opens
            simp only [List.length_cons]
            omega
          · cases opens
  · cases opens

/-- Whatever quotes, escapes and comments a line has whose only blanks are spaces and tabs, its
remainder has the remaining words; a command around another one is read from the remaining words, at
least one of which was taken, and a command that is read from no such remainder is not around one. -/
theorem read_remaining (isScript : Text → Bool) {typed : Text} (spaced : IsSpaced typed) :
    (∀ words, words? typed = some words →
      ∀ count, words? (tail typed words count) = some (words.drop count)) ∧
    (∀ wrapper inner, nested? typed = some (wrapper, inner) →
      read isScript typed = (read isScript inner).map wrapper.around ∧ IsSpaced inner ∧
      ∃ words count, words? (trim typed) = some words ∧ opening? words = some (wrapper, count) ∧
        0 < count ∧ count < words.length ∧ words? (trim inner) = some (words.drop count)) ∧
    (nested? typed = none →
      ∀ wrapper inner, read isScript typed ≠ .ok (Wrapper.around wrapper inner)) := by
  refine ⟨fun words areWords => words?_tail spaced areWords, fun wrapper inner nested => ?_,
    fun direct wrapper inner reads => ?_⟩
  · refine ⟨read_nested isScript nested, ?_⟩
    obtain ⟨words, count, areWords, opens, rfl⟩ := nested?_eq_some.mp nested
    have spacedLine : IsSpaced (trim typed) := by
      obtain ⟨front, back, isTyped, -, -⟩ := exists_trim typed
      refine spaced.subset ?_
      conv_rhs => rw [isTyped]
      exact fun _ member => by simp [member]
    obtain ⟨spacedInner, trimmedInner⟩ := tail_spaced spacedLine (trimmed_trim typed) areWords count
    obtain ⟨positive, fewer⟩ := opening?_count opens
    refine ⟨spacedInner, words, count, areWords, opens, positive, fewer, ?_⟩
    rw [trimmedInner.trim_eq, words?_tail spacedLine areWords]
  · have single := gives_of_eq_ok reads (read_single isScript direct)
    rw [isNested_around] at single
    cases single

/-- An inner command with an escaped blank and a quoted word is read from the line as it was typed,
with the comment behind it, and one behind a quoted condition from its words joined anew. -/
theorem read_remaining_escaped :
    let typed : Text := "If a=b ?c\\ d Get \"x y\" # done"
    let quoted : Text := "If 'a=b' ?c\\ d Get \"x y\" # done"
    let words : List Text := ["If", "a=b", "?c d", "Get", "x y"]
    let inner : Text := "'?c d' Get 'x y'"
    let single : Text := "Get 'x y'"
    let isScript : Text → Bool := fun _ => false
    IsSpaced typed ∧ words? typed = some words ∧
      tail typed words 2 = "?c\\ d Get \"x y\" # done" ∧
      words? (tail typed words 2) = some (words.drop 2) ∧
      IsSpaced quoted ∧ nested? quoted = some (.conditional "a=b", inner) ∧
      read isScript quoted = (read isScript inner).map (Wrapper.conditional "a=b").around ∧
      IsSpaced single ∧ nested? single = none ∧
      read isScript single ≠ .ok (.conditional "a=b" .quit) := by
  intro typed quoted words inner single isScript
  have spaced : IsSpaced typed := by decide
  have areWords : words? typed = some words := by decide
  have spacedQuoted : IsSpaced quoted := by decide
  have nested : nested? quoted = some (.conditional "a=b", inner) := by decide
  have spacedSingle : IsSpaced single := by decide
  have direct : nested? single = none := by decide
  exact ⟨spaced, areWords, by decide, (read_remaining isScript spaced).1 _ areWords 2, spacedQuoted,
    nested, ((read_remaining isScript spacedQuoted).2.1 _ _ nested).1, spacedSingle, direct,
    (read_remaining isScript spacedSingle).2.2 direct (.conditional "a=b") .quit⟩

end Command

end ManagementShell

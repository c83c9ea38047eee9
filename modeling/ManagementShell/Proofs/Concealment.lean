import ManagementShell.Invocation
import ManagementShell.Proofs.Text.Lacks
import ManagementShell.Proofs.Text.Quoting

/-
This file shows that no word of a command that is shown holds the secret, however the command is
quoted, if there is no single quote in the secret itself.
-/

namespace ManagementShell
open Text

namespace Text.Quoting

section

variable {secret front rest : Text} {position : Position}

theorem Separated.apart (separated : Separated secret .plain rest) :
    Separated secret .apart rest := by
  cases separated with
  | ending _ => exact .ending (by decide)
  | separator _ separates later => exact .separator (by decide) separates later
  | ordinary _ isOrdinary later => exact .ordinary (.inl rfl) isOrdinary later
  | foreign _ isOrdinary lacks later => exact .foreign (by decide) isOrdinary lacks later

/-- Only a single quote ends a piece in quotes. -/
theorem Separated.drop_quoted (noQuote : '\'' ∉ front)
    (separated : Separated secret .quoted (front ++ rest)) : Separated secret .quoted rest := by
  induction front with
  | nil => exact separated
  | cons character front inductionHypothesis =>
      rw [List.mem_cons, not_or] at noQuote
      rw [List.cons_append] at separated
      cases separated with
      | separator outside _ _ => exact absurd rfl outside
      | ordinary unquoted _ _ => exact absurd unquoted (by decide)
      | foreign outside _ _ _ => exact absurd rfl outside
      | quoted _ later => exact inductionHypothesis noQuote.2 later
      | closing _ => exact absurd rfl noQuote.1

/-- Only a single quote begins a piece in quotes. -/
theorem Separated.drop_plain (noQuote : '\'' ∉ front)
    (unquoted : position = .apart ∨ position = .plain)
    (separated : Separated secret position (front ++ rest)) : Separated secret .apart rest := by
  induction front generalizing position with
  | nil =>
      rcases unquoted with rfl | rfl
      · exact separated
      · exact separated.apart
  | cons character front inductionHypothesis =>
      rw [List.mem_cons, not_or] at noQuote
      rw [List.cons_append] at separated
      generalize front ++ rest = after at separated inductionHypothesis
      cases separated with
      | separator _ _ later => exact inductionHypothesis noQuote.2 (.inl rfl) later
      | ordinary _ _ later => exact inductionHypothesis noQuote.2 (.inr rfl) later
      | foreign _ _ _ later => exact inductionHypothesis noQuote.2 (.inl rfl) later
      | opening _ => exact absurd rfl noQuote.1
      | quoted _ _ => exact absurd unquoted (by decide)
      | closing _ => exact absurd unquoted (by decide)
      | escape _ => exact absurd unquoted (by decide)

/-- A backslash behind a piece in quotes has a single quote behind it. -/
theorem Separated.drop_behind (nonempty : front ≠ []) (noQuote : '\'' ∉ front)
    (noBackslash : front ≠ ['\\']) (separated : Separated secret .behind (front ++ rest)) :
    Separated secret .apart rest := by
  obtain ⟨character, others, rfl⟩ := List.exists_cons_of_ne_nil nonempty
  rw [List.mem_cons, not_or] at noQuote
  rw [List.cons_append] at separated
  generalize isRest : others ++ rest = after at separated
  cases separated with
  | separator _ _ later =>
      subst isRest
      exact later.drop_plain noQuote.2 (.inl rfl)
  | ordinary unquoted _ _ => exact absurd unquoted (by decide)
  | foreign _ _ _ later =>
      subst isRest
      exact later.drop_plain noQuote.2 (.inl rfl)
  | escape _ =>
      cases others with
      | nil => exact absurd rfl noBackslash
      | cons second others =>
          obtain ⟨rfl, -⟩ := List.cons.inj isRest
          exact absurd List.mem_cons_self noQuote.2

/-- Characters that the secret lacks keep the pieces around them apart. -/
theorem separated_foreign {word : Text}
    (foreign : ∀ character ∈ word, isOrdinary character = true ∧ character ∉ secret)
    (later : Separated secret .apart rest) : Separated secret .apart (word ++ rest) := by
  induction word with
  | nil => exact later
  | cons character word inductionHypothesis =>
      rw [List.forall_mem_cons] at foreign
      exact .foreign (by decide) foreign.1.1 foreign.1.2 (inductionHypothesis foreign.2)

theorem separated_inside {word : Text} (noQuote : '\'' ∉ word)
    (later : Separated secret .quoted rest) : Separated secret .quoted (word ++ rest) := by
  induction word with
  | nil => exact later
  | cons character word inductionHypothesis =>
      rw [List.mem_cons, not_or] at noQuote
      exact .quoted (Ne.symm noQuote.1) (inductionHypothesis noQuote.2)

theorem mask_foreign (noStar : '*' ∉ secret) :
    ∀ character ∈ Masking.mask, isOrdinary character = true ∧ character ∉ secret := by
  have stars : Masking.mask.all (· == '*') = true := by decide
  intro character member
  rw [beq_iff_eq.mp (List.all_eq_true.mp stars character member)]
  exact ⟨by decide, noStar⟩

/-- A mask takes the place of a piece, or of a part of one. -/
theorem separated_mask (noStar : '*' ∉ secret) (later : Separated secret .apart rest)
    (outside : position ≠ .quoted) : Separated secret position (Masking.mask ++ rest) := by
  obtain ⟨isOrdinary, lacks⟩ := mask_foreign noStar '*' (by decide)
  have others : ∀ character ∈ ("*****" : Text), Quoting.isOrdinary character = true ∧
      character ∉ secret := fun character member => mask_foreign noStar character (.tail _ member)
  exact .foreign outside isOrdinary lacks (separated_foreign others later)

/-- The pieces of a line are still kept apart where the secret is masked. The induction is on the
length of the line. -/
theorem Separated.replaceAll (nonempty : secret ≠ []) (noQuote : '\'' ∉ secret)
    (noStar : '*' ∉ secret) (noBackslash : secret ≠ ['\\']) {text : Text}
    (separated : Separated secret position text) :
    Separated secret position (replaceAll text secret Masking.mask) := by
  induction isLength : text.length using Nat.strong_induction_on generalizing text position with
  | _ length inductionHypothesis =>
  subst isLength
  by_cases begins : secret <+: text
  · obtain ⟨rest, rfl⟩ := begins
    have shorter : rest.length < (secret ++ rest).length := by
      have least := List.length_pos_iff.mpr nonempty
      rw [List.length_append]
      omega
    have masked {position : Position} (later : Separated secret position rest) :=
      inductionHypothesis _ shorter later rfl
    rw [replaceAll_mark nonempty]
    cases position with
    | apart =>
        have later := masked (separated.drop_plain noQuote (.inl rfl))
        exact separated_mask noStar later (by decide)
    | plain =>
        have later := masked (separated.drop_plain noQuote (.inr rfl))
        exact separated_mask noStar later (by decide)
    | quoted => exact separated_inside (by decide) (masked (separated.drop_quoted noQuote))
    | behind =>
        have later := masked (separated.drop_behind nonempty noQuote noBackslash)
        exact separated_mask noStar later (by decide)
  · have masked {position : Position} {character : Char} {rest : Text}
        (isText : text = character :: rest) (later : Separated secret position rest) :=
      inductionHypothesis rest.length (by rw [isText]; exact Nat.lt_succ_self _) later rfl
    cases separated with
    | ending outside => exact .ending outside
    | separator outside separates later =>
        rw [replaceAll_cons begins]
        exact .separator outside separates (masked rfl later)
    | ordinary unquoted isOrdinary later =>
        rw [replaceAll_cons begins]
        exact .ordinary unquoted isOrdinary (masked rfl later)
    | foreign outside isOrdinary lacks later =>
        rw [replaceAll_cons begins]
        exact .foreign outside isOrdinary lacks (masked rfl later)
    | opening later =>
        rw [replaceAll_cons begins]
        exact .opening (masked rfl later)
    | quoted differs later =>
        rw [replaceAll_cons begins]
        exact .quoted differs (masked rfl later)
    | closing later =>
        rw [replaceAll_cons begins]
        exact .closing (masked rfl later)
    | @escape rest later =>
        obtain ⟨first, others, rfl⟩ := List.exists_cons_of_ne_nil nonempty
        have absent : first ∉ ['\'', '\''] := by
          rw [List.mem_cons, not_or] at noQuote
          simp [Ne.symm noQuote.1]
        have passed := replaceAll_append absent others Masking.mask rest
        rw [List.cons_append, List.cons_append, List.nil_append] at passed
        rw [replaceAll_cons begins, passed]
        refine .escape (inductionHypothesis rest.length ?_ later rfl)
        simp only [List.length_cons]
        omega

end

/-- The reader is at no character behind a backslash. -/
def IsUnescaped : Reading → Prop
  | .escapeBetween | .escapePlain | .escapeDouble => False
  | _ => True

theorem readCharacter_lacks {reading : Reading} (unescaped : IsUnescaped reading) {word : Text}
    (lacks : '\\' ∉ word) {character : Char} (differs : character ≠ '\\') :
    IsUnescaped (readCharacter word character reading).2.1 ∧
      '\\' ∉ (readCharacter word character reading).2.2 := by
  cases reading <;> simp only [readCharacter] <;> (try split_ifs) <;>
    simp_all [IsUnescaped, Ne.symm differs]

/-- No backslash comes into the words of a line without one. -/
theorem wordsFrom_lacks {reading : Reading} (unescaped : IsUnescaped reading) {word text : Text}
    (lacks : '\\' ∉ word) (absent : '\\' ∉ text) {words : List Text}
    (areWords : wordsFrom reading word text = some words) : ∀ other ∈ words, '\\' ∉ other := by
  induction text generalizing reading word words with
  | nil =>
      cases reading with
      | between | comment =>
          cases areWords
          exact List.forall_mem_nil _
      | plain =>
          cases areWords
          exact List.forall_mem_singleton.mpr lacks
      | single | double => cases areWords
      | escapeBetween | escapePlain | escapeDouble => exact unescaped.elim
  | cons character rest inductionHypothesis =>
      rw [List.mem_cons, not_or] at absent
      have next := readCharacter_lacks unescaped lacks (Ne.symm absent.1)
      unfold wordsFrom at areWords
      split at areWords
      · rename_i reading begun isRead
        rw [isRead] at next
        obtain ⟨others, areOthers, rfl⟩ := Option.map_eq_some_iff.mp areWords
        exact List.forall_mem_cons.mpr
          ⟨lacks, inductionHypothesis next.1 next.2 absent.2 areOthers⟩
      · rename_i reading begun isRead
        rw [isRead] at next
        exact inductionHypothesis next.1 next.2 absent.2 areWords

end Text.Quoting

namespace Invocation
open Text.Quoting

/-- No word that the shown command is split into holds the secret, whatever the program and its
arguments are, if the secret has no single quote in it, which would be written in another way. -/
theorem shown_conceals {invocation : Invocation} (nonempty : invocation.secret ≠ [])
    (noStar : '*' ∉ invocation.secret) (noQuote : '\'' ∉ invocation.secret) {words : List Text}
    (isSplit : words? invocation.shown = some words) :
    ∀ word ∈ words, ¬invocation.secret <:+: word := by
  have stars : ∀ character ∈ Masking.mask, character ∉ invocation.secret :=
    fun character member => (mask_foreign noStar character member).2
  have isMasked : invocation.shown =
      replaceAll (unwords (invocation.program :: invocation.arguments)) invocation.secret
        Masking.mask := by
    rw [shown, Masking.hideSecret, if_neg nonempty]
  rw [isMasked] at isSplit
  by_cases isBackslash : invocation.secret = ['\\']
  · rw [isBackslash] at isSplit ⊢
    have cleared : '\\' ∉ replaceAll (unwords (invocation.program :: invocation.arguments)) ['\\']
        Masking.mask := replaceAll_clears (by decide) _
    have unescaped : IsUnescaped .between := trivial
    intro word member inside
    exact wordsFrom_lacks unescaped List.not_mem_nil cleared isSplit word member
      (inside.subset List.mem_cons_self)
  · have separated := (separated_unwords invocation.secret
      (invocation.program :: invocation.arguments)).replaceAll nonempty noQuote noStar isBackslash
    have absent := replaceAll_absent nonempty (by decide) stars
      (unwords (invocation.program :: invocation.arguments))
    exact separated.words_lack nonempty noQuote absent
      ⟨.inl ⟨rfl, rfl⟩, clear_nil nonempty⟩ isSplit

/-- The secret of this command goes from one argument into the next, and there is a single quote in
the argument behind it. -/
theorem shown_conceals_spanning :
    let invocation : Invocation := ⟨"prog", ["-p", "it's g"], none, "g -"⟩
    let words : List Text := ["pro******p", "it's g"]
    words? invocation.shown = some words ∧ ∀ word ∈ words, ¬invocation.secret <:+: word := by
  intro invocation words
  have isSplit : words? invocation.shown = some words := by decide
  exact ⟨isSplit, shown_conceals (by decide) (by decide) (by decide) isSplit⟩

/-- A secret with a single quote in it is written in another way than it is masked. -/
theorem shown_reveals : ∃ (invocation : Invocation) (words : List Text),
    invocation.secret ≠ [] ∧ '*' ∉ invocation.secret ∧ words? invocation.shown = some words ∧
      ∃ word ∈ words, invocation.secret <:+: word :=
  ⟨⟨"wsman", ["-p", "it's"], none, "it's"⟩, ["wsman", "-p", "it's"], by decide⟩

end Invocation

end ManagementShell

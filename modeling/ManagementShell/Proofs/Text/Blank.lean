import ManagementShell.Text.Blank
import Mathlib.Data.List.DropRight

/-
This file holds what trimming does to a text, by the characters that the text begins and ends with.
-/

namespace ManagementShell.Text

theorem ascii_of_isAlphanum {character : Char} (isAlphanumeric : character.isAlphanum = true) :
    character.toNat < 0x80 := by
  have below {most : UInt32} (small : character.val ≤ most) (bounded : most.toNat < 0x80) :
      character.toNat < 0x80 := Nat.lt_of_le_of_lt (UInt32.le_iff_toNat_le.mp small) bounded
  rcases Bool.or_eq_true_iff.mp isAlphanumeric with isLetter | isDigit
  · rcases Bool.or_eq_true_iff.mp isLetter with isUpper | isLower
    · exact below (of_decide_eq_true isUpper).2 (by decide)
    · exact below (of_decide_eq_true (Bool.and_eq_true_iff.mp isLower).2) (by decide)
  · exact below (of_decide_eq_true (Bool.and_eq_true_iff.mp isDigit).2) (by decide)

theorem isBlank_of_isDigit {character : Char} (digit : character.isDigit = true) :
    isBlank character = false := by
  simp only [Char.isDigit, Bool.and_eq_true, decide_eq_true_eq, ge_iff_le, UInt32.le_iff_toNat_le]
    at digit
  have least : 48 ≤ character.toNat := digit.1
  have greatest : character.toNat ≤ 57 := digit.2
  rw [Bool.eq_false_iff]
  simp only [isBlank, ne_eq, Bool.or_eq_true, Bool.and_eq_true, decide_eq_true_eq, beq_iff_eq]
  omega

theorem trimStart_blanks {blanks : Text} (areBlank : blanks.all isBlank = true) :
    blanks.trimStart = [] :=
  List.dropWhile_eq_nil_iff.mpr (List.all_eq_true.mp areBlank)

theorem trimStart_of_head {character : Char} {rest : Text} (visible : isBlank character = false) :
    trimStart (character :: rest) = character :: rest := by
  simp [trimStart, visible]

/-- The text is empty or its first character is not blank. -/
def StartsVisible (text : Text) : Prop := ∀ character ∈ text.head?, isBlank character = false

theorem StartsVisible.trimStart_eq {text : Text} (starts : StartsVisible text) :
    trimStart text = text := by
  cases text with
  | nil => rfl
  | cons first rest => exact trimStart_of_head (starts first rfl)

theorem startsVisible_trimStart (text : Text) : StartsVisible (trimStart text) := by
  intro character isHead
  have visible := List.head?_dropWhile_not isBlank text
  rw [← trimStart, isHead] at visible
  simpa using visible

/-- The text is empty or its last character is not blank. -/
def EndsVisible (text : Text) : Prop := ∀ character ∈ text.getLast?, isBlank character = false

theorem EndsVisible.suffix {text part : Text} (ends : EndsVisible text) (isPart : part <:+ text) :
    EndsVisible part := by
  intro character isLast
  obtain ⟨front, rfl⟩ := isPart
  refine ends character ?_
  rwa [List.getLast?_append_of_ne_nil]
  rintro rfl
  cases isLast

theorem EndsVisible.trimEnd_eq {text : Text} (ends : EndsVisible text) : trimEnd text = text := by
  refine List.rdropWhile_eq_self_iff.mpr fun nonempty => ?_
  simp [ends _ (List.getLast?_eq_some_getLast nonempty)]

theorem head?_trimEnd {first : Char} (rest : Text) (visible : isBlank first = false) :
    (trimEnd (first :: rest)).head? = some first := by
  have kept : ([first] : Text).dropWhile isBlank ≠ [] := by simp [visible]
  rw [trimEnd, dropWhileEnd, List.reverse_cons, List.dropWhile_append]
  split <;> simp [visible]

/-- Neither the first nor the last character is blank. -/
structure Trimmed (text : Text) : Prop where
  head : StartsVisible text
  last : EndsVisible text

theorem Trimmed.trim_eq {text : Text} (trimmed : Trimmed text) : trim text = text := by
  rw [trim, trimmed.head.trimStart_eq, trimmed.last.trimEnd_eq]

theorem trimmed_trim (text : Text) : Trimmed (trim text) where
  head character isHead := by
    have starts := startsVisible_trimStart text
    unfold trim at isHead
    cases isStart : trimStart text with
    | nil =>
        rw [isStart] at isHead
        cases isHead
    | cons first rest =>
        rw [isStart] at isHead starts
        have visible := starts first rfl
        rw [head?_trimEnd rest visible] at isHead
        cases isHead
        exact visible
  last character isLast := by
    unfold trim trimEnd dropWhileEnd at isLast
    rw [List.getLast?_reverse] at isLast
    have visible := List.head?_dropWhile_not isBlank (trimStart text).reverse
    rw [isLast] at visible
    simpa using visible

/-- A text is what is left of it when it is trimmed, with blanks around. -/
theorem exists_trim (text : Text) : ∃ front back, text = front ++ (trim text ++ back) ∧
    front.all isBlank = true ∧ back.all isBlank = true := by
  refine ⟨text.takeWhile isBlank, (trimStart text).rtakeWhile isBlank, ?_, List.all_takeWhile, ?_⟩
  · have split :
        trimEnd (trimStart text) ++ (trimStart text).rtakeWhile isBlank = trimStart text := by
      rw [List.rtakeWhile, trimEnd, dropWhileEnd, ← List.reverse_append,
        List.takeWhile_append_dropWhile, List.reverse_reverse]
    rw [trim, split, trimStart, List.takeWhile_append_dropWhile]
  · rw [List.rtakeWhile, List.all_reverse]
    exact List.all_takeWhile

theorem mem_trim {text : Text} {character : Char} (visible : isBlank character = false)
    (member : character ∈ text) : character ∈ trim text := by
  obtain ⟨front, back, isText, areBlank, areBlankToo⟩ := exists_trim text
  have other {blanks : Text} (areBlank : blanks.all isBlank = true) : character ∉ blanks := by
    intro isBlank
    rw [List.all_eq_true.mp areBlank character isBlank] at visible
    cases visible
  rw [isText, List.mem_append, List.mem_append] at member
  exact (member.resolve_left (other areBlank)).resolve_right (other areBlankToo)

end ManagementShell.Text

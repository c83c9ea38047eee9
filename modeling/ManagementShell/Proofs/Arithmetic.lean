import ManagementShell.Arithmetic
import ManagementShell.Proofs.Outcome
import ManagementShell.Proofs.Text.Lacks

/-
This file shows that the faults of an expression name nothing but characters of the expression.
-/

namespace ManagementShell.Arithmetic
open Text

variable {c : Char} (fresh : Fresh c)

/-- Neither the rest of the text nor the message of a fault has the character. -/
def Reads (c : Char) {bound : Nat} (outcome : Except Fault (Reading bound)) : Prop :=
  Gives outcome (fun reading => c ∉ reading.rest) fun fault => c ∉ fault.message

/-- The message of a fault of the operation does not have the character. -/
def Computes (c : Char) (outcome : Except Fault Int) : Prop :=
  Gives outcome (fun _ => True) fun fault => c ∉ fault.message

theorem Computes.failed {outcome : Except Fault Int} {fault : Fault}
    (computes : Computes c outcome) (failed : outcome = .error fault) : c ∉ fault.message := by
  rw [failed] at computes
  exact computes

theorem Reads.failed {bound : Nat} {outcome : Except Fault (Reading bound)} {fault : Fault}
    (reads : Reads c outcome) (failed : outcome = .error fault) : c ∉ fault.message := by
  rw [failed] at reads
  exact reads

theorem Reads.rest {bound : Nat} {outcome : Except Fault (Reading bound)} {reading : Reading bound}
    (reads : Reads c outcome) (read : outcome = .ok reading) : c ∉ reading.rest := by
  rw [read] at reads
  exact reads

theorem reads_ok {bound : Nat} {reading : Reading bound} (lacks : c ∉ reading.rest) :
    Reads c (.ok reading) := lacks

theorem after_lacks {text after : Text} {character : Char}
    (split : text.trimStart = character :: after) (lacks : c ∉ text) :
    c ≠ character ∧ c ∉ after := by
  have trimmed := trimStart_lacks lacks
  rwa [split, List.mem_cons, not_or] at trimmed

section
include fresh

theorem unexpected_lacks {character : Char} (differs : c ≠ character) :
    c ∉ (Fault.unexpected character).message := by
  have fixed : c ∉ ("unexpected character '" : Text) ++ "'" := fresh.lacks (by decide)
  change c ∉ ("unexpected character '" : Text) ++ [character] ++ "'"
  simp only [List.mem_append, not_or] at fixed ⊢
  exact ⟨⟨fixed.1, by simpa using differs⟩, fixed.2⟩

theorem notClosed_lacks {found : Option Char} (differs : ∀ character ∈ found, c ≠ character) :
    c ∉ (Fault.notClosed found).message := by
  cases found with
  | none =>
      change c ∉ ("expected ')', got None" : Text)
      exact fresh.literal (by decide)
  | some character =>
      have fixed : c ∉ ("expected ')', got Some(" : Text) ++ ")" := fresh.lacks (by decide)
      change c ∉ ("expected ')', got Some(" : Text) ++ quotedCharacter character ++ ")"
      simp only [List.mem_append, not_or] at fixed ⊢
      exact ⟨⟨fixed.1, quotedCharacter_lacks fresh (differs character rfl)⟩, fixed.2⟩

theorem literalTooLarge_lacks {digits : Text} (lacks : c ∉ digits) :
    c ∉ (Fault.literalTooLarge digits).message := by
  have fixed : c ∉ ("invalid number '" : Text) ++ "': number too large to fit in target type" :=
    fresh.lacks (by decide)
  change c ∉ ("invalid number '" : Text) ++ digits ++ "': number too large to fit in target type"
  simp only [List.mem_append, not_or] at fixed ⊢
  exact ⟨⟨fixed.1, lacks⟩, fixed.2⟩

theorem ranged_computes (value : Int) : Computes c (ranged value) := by
  unfold ranged
  split
  · trivial
  · change c ∉ ("integer overflow" : Text)
    exact fresh.literal (by decide)

theorem quotient_computes (left right : Int) : Computes c (quotient left right) := by
  unfold quotient
  split
  · change c ∉ ("division by zero" : Text)
    exact fresh.literal (by decide)
  · exact ranged_computes fresh _

theorem remainder_computes (left right : Int) : Computes c (remainder left right) := by
  unfold remainder
  split
  · change c ∉ ("modulo by zero" : Text)
    exact fresh.literal (by decide)
  · split
    · trivial
    · rename_i fault failed
      exact (ranged_computes fresh _).failed failed

theorem additive_computes {character : Char} {apply : Int → Int → Except Fault Int}
    (isOperation : additive? character = some apply) (left right : Int) :
    Computes c (apply left right) := by
  unfold additive? at isOperation
  split at isOperation
  · cases isOperation
    exact ranged_computes fresh _
  · cases isOperation
    exact ranged_computes fresh _
  · cases isOperation

theorem multiplicative_computes {character : Char} {apply : Int → Int → Except Fault Int}
    (isOperation : multiplicative? character = some apply) (left right : Int) :
    Computes c (apply left right) := by
  unfold multiplicative? at isOperation
  split at isOperation
  · cases isOperation
    exact ranged_computes fresh _
  · cases isOperation
    exact quotient_computes fresh _ _
  · cases isOperation
    exact remainder_computes fresh _ _
  · cases isOperation

omit fresh in
/-- A run of digits is read as a whole, whatever it denotes. -/
theorem literal_digits {character : Char} (rest : Text) (isDigit : character.isDigit) :
    (∃ reading, literal (character :: rest) = .ok reading ∧
        reading.rest = rest.dropWhile Char.isDigit) ∨
      literal (character :: rest) =
        .error (.literalTooLarge (character :: rest.takeWhile Char.isDigit)) := by
  rw [literal, if_pos isDigit]
  by_cases inRange : InRange (digitsValue (character :: rest.takeWhile Char.isDigit))
  · rw [if_pos inRange]
    exact .inl ⟨_, rfl, rfl⟩
  · rw [if_neg inRange]
    exact .inr rfl

theorem literal_reads {text : Text} (lacks : c ∉ text) : Reads c (literal text) := by
  cases text with
  | nil =>
      change c ∉ ("unexpected end of expression" : Text)
      exact fresh.literal (by decide)
  | cons character rest =>
      rw [List.mem_cons, not_or] at lacks
      by_cases isDigit : character.isDigit
      · rcases literal_digits rest isDigit with ⟨reading, read, isRest⟩ | failed
        · rw [read]
          apply reads_ok
          rw [isRest]
          exact fun member => lacks.2 (List.dropWhile_subset _ member)
        · rw [failed]
          apply literalTooLarge_lacks fresh
          rw [List.mem_cons, not_or]
          exact ⟨lacks.1, fun member => lacks.2 (List.takeWhile_subset _ member)⟩
      · rw [literal, if_neg isDigit]
        exact unexpected_lacks fresh lacks.1

end

mutual

theorem sum_reads (fresh : Fresh c) (text : Text) (lacks : c ∉ text) : Reads c (sum text) := by
  have reads := term_reads fresh text lacks
  rw [sum]
  split
  · rename_i fault failed
    exact reads.failed failed
  · rename_i first isFirst
    have within := first.within
    have later := moreTerms_reads fresh first.value first.rest (reads.rest isFirst)
    split
    · rename_i fault failed
      exact later.failed failed
    · rename_i last isLast
      exact later.rest isLast
termination_by (text.length, 5)

theorem moreTerms_reads (fresh : Fresh c) (left : Int) (text : Text) (lacks : c ∉ text) :
    Reads c (moreTerms left text) := by
  rw [moreTerms]
  split
  · exact lacks
  · rename_i character after split
    have shorter := rest_shorter split
    have reads := term_reads fresh after (after_lacks split lacks).2
    split
    · exact lacks
    · rename_i apply isOperation
      split
      · rename_i fault failed
        exact reads.failed failed
      · rename_i right isRight
        have within := right.within
        split
        · rename_i fault failed
          exact (additive_computes fresh isOperation _ _).failed failed
        · rename_i value isValue
          have later := moreTerms_reads fresh value right.rest (reads.rest isRight)
          split
          · rename_i fault failed
            exact later.failed failed
          · rename_i last isLast
            exact later.rest isLast
termination_by (text.length, 4)

theorem term_reads (fresh : Fresh c) (text : Text) (lacks : c ∉ text) : Reads c (term text) := by
  have reads := factor_reads fresh text lacks
  rw [term]
  split
  · rename_i fault failed
    exact reads.failed failed
  · rename_i first isFirst
    have within := first.within
    have later := moreFactors_reads fresh first.value first.rest (reads.rest isFirst)
    split
    · rename_i fault failed
      exact later.failed failed
    · rename_i last isLast
      exact later.rest isLast
termination_by (text.length, 3)

theorem moreFactors_reads (fresh : Fresh c) (left : Int) (text : Text) (lacks : c ∉ text) :
    Reads c (moreFactors left text) := by
  rw [moreFactors]
  split
  · exact lacks
  · rename_i character after split
    have shorter := rest_shorter split
    have reads := factor_reads fresh after (after_lacks split lacks).2
    split
    · exact lacks
    · rename_i apply isOperation
      split
      · rename_i fault failed
        exact reads.failed failed
      · rename_i right isRight
        have within := right.within
        split
        · rename_i fault failed
          exact (multiplicative_computes fresh isOperation _ _).failed failed
        · rename_i value isValue
          have later := moreFactors_reads fresh value right.rest (reads.rest isRight)
          split
          · rename_i fault failed
            exact later.failed failed
          · rename_i last isLast
            exact later.rest isLast
termination_by (text.length, 2)

theorem factor_reads (fresh : Fresh c) (text : Text) (lacks : c ∉ text) : Reads c (factor text) := by
  rw [factor]
  split
  · exact primary_reads fresh text lacks
  · rename_i character after split
    have shorter := rest_shorter split
    have lacksAfter := (after_lacks split lacks).2
    split
    · have reads := factor_reads fresh after lacksAfter
      split
      · rename_i fault failed
        exact reads.failed failed
      · rename_i operand isOperand
        split
        · rename_i fault failed
          exact (ranged_computes fresh _).failed failed
        · exact reads_ok (reads.rest isOperand)
    · split
      · have reads := primary_reads fresh after lacksAfter
        split
        · rename_i fault failed
          exact reads.failed failed
        · rename_i operand isOperand
          exact reads.rest isOperand
      · exact primary_reads fresh text lacks
termination_by (text.length, 1)

theorem primary_reads (fresh : Fresh c) (text : Text) (lacks : c ∉ text) : Reads c (primary text) := by
  rw [primary]
  split
  · rename_i after split
    have shorter := rest_shorter split
    have reads := sum_reads fresh after (after_lacks split lacks).2
    split
    · rename_i fault failed
      exact reads.failed failed
    · rename_i inner isInner
      have rest := reads.rest isInner
      split
      · rename_i others closing
        exact reads_ok (after_lacks closing rest).2
      · apply notClosed_lacks fresh
        intro character isHead same
        exact trimStart_lacks rest (same ▸ List.mem_of_mem_head? isHead)
  · rename_i split
    have reads := literal_reads fresh (trimStart_lacks lacks)
    split
    · rename_i fault failed
      exact reads.failed failed
    · rename_i start isStart
      exact reads.rest isStart
termination_by (text.length, 0)

end

/-- What is wrong with an expression is told without characters that it does not have. -/
theorem evaluate_lacks (fresh : Fresh c) {text : Text} (lacks : c ∉ text) :
    Gives (evaluate text) (fun _ => True) fun fault => c ∉ fault.message := by
  have reads := sum_reads fresh text lacks
  unfold evaluate
  split
  · rename_i fault failed
    exact reads.failed failed
  · rename_i result isResult
    split
    · trivial
    · rename_i character after split
      exact unexpected_lacks fresh (after_lacks split (reads.rest isResult)).1

end ManagementShell.Arithmetic

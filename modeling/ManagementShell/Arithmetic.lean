import ManagementShell.Text.Blank
import ManagementShell.Text.Numeral
import ManagementShell.Text.Printable

/-
This file evaluates integer expressions while it reads them, so that the first fault from the left
is the one that is reported.
-/

namespace ManagementShell.Arithmetic
open Text

inductive Fault where
  | unexpected (character : Char)
  | unexpectedEnd
  | notClosed (found : Option Char)
  | overflow
  | divisionByZero
  | moduloByZero
  | literalTooLarge (digits : Text)
  deriving DecidableEq, Repr

def Fault.message : Fault → Text
  | .unexpected character => "unexpected character '" ++ [character] ++ "'"
  | .unexpectedEnd => "unexpected end of expression"
  | .notClosed none => "expected ')', got None"
  | .notClosed (some character) => "expected ')', got Some(" ++ quotedCharacter character ++ ")"
  | .overflow => "integer overflow"
  | .divisionByZero => "division by zero"
  | .moduloByZero => "modulo by zero"
  | .literalTooLarge digits =>
      "invalid number '" ++ digits ++ "': number too large to fit in target type"

/-- A value read from the beginning of a text, with the rest of it, which is below a bound. -/
structure Reading (bound : Nat) where
  value : Int
  rest : Text
  within : rest.length < bound

def Reading.widen {bound larger : Nat} (reading : Reading bound) (le : bound ≤ larger) :
    Reading larger :=
  ⟨reading.value, reading.rest, Nat.lt_of_lt_of_le reading.within le⟩

def ranged (value : Int) : Except Fault Int :=
  if InRange value then .ok value else .error .overflow

/-- The quotient is cut off toward zero. -/
def quotient (left right : Int) : Except Fault Int :=
  if right = 0 then .error .divisionByZero else ranged (left.tdiv right)

/-- The remainder has the sign of the left operand; it overflows where the quotient does. -/
def remainder (left right : Int) : Except Fault Int :=
  if right = 0 then .error .moduloByZero
  else match ranged (left.tdiv right) with
    | .ok _ => .ok (left.tmod right)
    | .error fault => .error fault

/-- The operations that join terms. -/
def additive? : Char → Option (Int → Int → Except Fault Int)
  | '+' => some fun left right => ranged (left + right)
  | '-' => some fun left right => ranged (left - right)
  | _ => none

/-- The operations that join factors. -/
def multiplicative? : Char → Option (Int → Int → Except Fault Int)
  | '*' => some fun left right => ranged (left * right)
  | '/' => some quotient
  | '%' => some remainder
  | _ => none

theorem length_dropWhile_le (drop : Char → Bool) (text : Text) :
    (text.dropWhile drop).length ≤ text.length := by
  induction text with
  | nil => simp
  | cons character rest inductionHypothesis =>
      rw [List.dropWhile_cons]
      split
      · exact Nat.le_succ_of_le inductionHypothesis
      · exact Nat.le_refl _

theorem length_trimStart_le (text : Text) : text.trimStart.length ≤ text.length :=
  length_dropWhile_le isBlank text

theorem rest_shorter {text rest : Text} {character : Char}
    (split : text.trimStart = character :: rest) : rest.length < text.length := by
  have shorter := length_trimStart_le text
  rw [split, List.length_cons] at shorter
  omega

/-- A literal is a run of digits that denotes an integer in range. -/
def literal (text : Text) : Except Fault (Reading text.length) :=
  match text with
  | [] => .error .unexpectedEnd
  | character :: rest =>
      if character.isDigit then
        let digits := character :: rest.takeWhile Char.isDigit
        if InRange (digitsValue digits) then
          .ok ⟨digitsValue digits, rest.dropWhile Char.isDigit,
            Nat.lt_succ_of_le (length_dropWhile_le _ _)⟩
        else .error (.literalTooLarge digits)
      else .error (.unexpected character)

mutual

/-- A sum is a term followed by any number of terms, each after a plus or a minus sign. -/
def sum (text : Text) : Except Fault (Reading text.length) :=
  match term text with
  | .error fault => .error fault
  | .ok first =>
      have := first.within
      match moreTerms first.value first.rest with
      | .error fault => .error fault
      | .ok last => .ok (last.widen (by omega))
termination_by (text.length, 5)

def moreTerms (left : Int) (text : Text) : Except Fault (Reading (text.length + 1)) :=
  match split : text.trimStart with
  | [] => .ok ⟨left, text, Nat.lt_succ_self _⟩
  | character :: after =>
      have := rest_shorter split
      match additive? character with
      | none => .ok ⟨left, text, Nat.lt_succ_self _⟩
      | some apply => match term after with
        | .error fault => .error fault
        | .ok right =>
            have := right.within
            match apply left right.value with
            | .error fault => .error fault
            | .ok value => match moreTerms value right.rest with
              | .error fault => .error fault
              | .ok last => .ok (last.widen (by omega))
termination_by (text.length, 4)

/-- A term is a factor followed by any number of factors, each after `*`, `/` or `%`. -/
def term (text : Text) : Except Fault (Reading text.length) :=
  match factor text with
  | .error fault => .error fault
  | .ok first =>
      have := first.within
      match moreFactors first.value first.rest with
      | .error fault => .error fault
      | .ok last => .ok (last.widen (by omega))
termination_by (text.length, 3)

def moreFactors (left : Int) (text : Text) : Except Fault (Reading (text.length + 1)) :=
  match split : text.trimStart with
  | [] => .ok ⟨left, text, Nat.lt_succ_self _⟩
  | character :: after =>
      have := rest_shorter split
      match multiplicative? character with
      | none => .ok ⟨left, text, Nat.lt_succ_self _⟩
      | some apply => match factor after with
        | .error fault => .error fault
        | .ok right =>
            have := right.within
            match apply left right.value with
            | .error fault => .error fault
            | .ok value => match moreFactors value right.rest with
              | .error fault => .error fault
              | .ok last => .ok (last.widen (by omega))
termination_by (text.length, 2)

/-- Minus signs may be repeated; a plus sign stands once, directly before the operand. -/
def factor (text : Text) : Except Fault (Reading text.length) :=
  match split : text.trimStart with
  | [] => primary text
  | character :: after =>
      have := rest_shorter split
      if character = '-' then
        match factor after with
        | .error fault => .error fault
        | .ok operand => match ranged (-operand.value) with
          | .error fault => .error fault
          | .ok value => .ok ⟨value, operand.rest, by have := operand.within; omega⟩
      else if character = '+' then
        match primary after with
        | .error fault => .error fault
        | .ok operand => .ok (operand.widen (by omega))
      else primary text
termination_by (text.length, 1)

/-- A primary is a literal or a sum in parentheses. -/
def primary (text : Text) : Except Fault (Reading text.length) :=
  match split : text.trimStart with
  | '(' :: after =>
      have := rest_shorter split
      match sum after with
      | .error fault => .error fault
      | .ok inner => match closing : inner.rest.trimStart with
        | ')' :: rest => .ok ⟨inner.value, rest, by
            have := inner.within
            have := rest_shorter closing
            omega⟩
        | other => .error (.notClosed other.head?)
  | start => match literal start with
    | .error fault => .error fault
    | .ok value => .ok (value.widen (by
        rw [← split]
        exact length_trimStart_le text))
termination_by (text.length, 0)

end

/-- The whole text must be one sum. -/
def evaluate (text : Text) : Except Fault Int :=
  match sum text with
  | .error fault => .error fault
  | .ok result => match result.rest.trimStart with
    | [] => .ok result.value
    | character :: _ => .error (.unexpected character)

end ManagementShell.Arithmetic

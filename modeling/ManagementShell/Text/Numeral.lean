import ManagementShell.Text

/-
This file reads and writes decimal numerals and fixes the ranges that numbers are kept in.
-/

namespace ManagementShell.Text

def digitValue (character : Char) : Nat := character.toNat - '0'.toNat

def digitsValue (digits : Text) : Nat :=
  digits.foldl (fun value digit => 10 * value + digitValue digit) 0

def hexDigit? (digit : Char) : Option Nat :=
  if digit.isDigit then some (digit.toNat - '0'.toNat)
  else if 'a' ≤ digit ∧ digit ≤ 'f' then some (digit.toNat - 'a'.toNat + 10)
  else if 'A' ≤ digit ∧ digit ≤ 'F' then some (digit.toNat - 'A'.toNat + 10)
  else none

/-- The number that a run of digits denotes in a base of at most sixteen. -/
def naturalInBase? (base : Nat) (digits : Text) : Option Nat :=
  let digit? := fun digit => match hexDigit? digit with
    | some value => if value < base then some value else none
    | none => none
  if digits = [] then none
  else (digits.mapM digit?).map fun values =>
    values.foldl (fun value digit => base * value + digit) 0

/-- A run of ASCII digits, and nothing else, denotes a natural number. -/
def natural? (text : Text) : Option Nat :=
  if text ≠ [] ∧ text.all Char.isDigit then some (digitsValue text) else none

/-- One plus sign may stand before the digits, and the number must not exceed the limit. -/
def unsigned? (limit : Nat) (text : Text) : Option Nat :=
  let digits := match text with
    | '+' :: rest => rest
    | _ => text
  match natural? digits with
  | some value => if value ≤ limit then some value else none
  | none => none

/-- The integers that a variable or an expression may hold. -/
def InRange (value : Int) : Prop := -0x8000000000000000 ≤ value ∧ value < 0x8000000000000000

instance (value : Int) : Decidable (InRange value) := inferInstanceAs (Decidable (_ ∧ _))

def integer? (text : Text) : Option Int :=
  let value? : Option Int := match text with
    | '-' :: rest => (natural? rest).map fun value => -(value : Int)
    | '+' :: rest => (natural? rest).map fun value => (value : Int)
    | _ => (natural? text).map fun value => (value : Int)
  match value? with
  | some value => if InRange value then some value else none
  | none => none

def ofNat (value : Nat) : Text := Nat.toDigits 10 value

def ofInt : Int → Text
  | .ofNat value => ofNat value
  | .negSucc value => '-' :: ofNat (value + 1)

end ManagementShell.Text

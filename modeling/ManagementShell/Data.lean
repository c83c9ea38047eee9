import ManagementShell.Text.Numeral

/-
This file defines the values that configuration and catalog files are made of, and reads settings
from them.
-/

namespace ManagementShell
open Text

inductive Data where
  | text (value : Text)
  /-- Unquoted text in a format where it may also stand for a number or for nothing. -/
  | plain (value : Text)
  | integer (value : Int)
  | boolean (value : Bool)
  /-- A date or a number with a fraction, which no setting has. -/
  | other
  | list (items : List Data)
  | table (entries : List (Text × Data))
  /-- A value with a mark that tells its kind. -/
  | tagged (tag : Text) (value : Data)
  deriving Repr

/-- What an unquoted text stands for where any value may be. -/
inductive PlainMeaning where
  | nothing
  | boolean
  | integer (value : Int)
  | fraction
  | text
  deriving DecidableEq, Repr

namespace Plain

def isNothing (text : Text) : Bool := ([[], "~", "null", "Null", "NULL"] : List Text).contains text

def booleans : List Text := ["true", "True", "TRUE", "false", "False", "FALSE"]

/-- Leading zeros make a text of a run of digits. -/
def isCode (unsigned : Text) : Bool :=
  match unsigned with
  | '0' :: rest => rest != [] && rest.all Char.isDigit
  | _ => false

/-- The number of digits whose base is told by the letters before them; with such letters it must
not exceed the limit. -/
def magnitude? (limit : Nat) (unsigned : Text) : Option Nat :=
  match unsigned with
  | '0' :: 'x' :: digits => (naturalInBase? 16 digits).filter (· ≤ limit)
  | '0' :: 'o' :: digits => (naturalInBase? 8 digits).filter (· ≤ limit)
  | '0' :: 'b' :: digits => (naturalInBase? 2 digits).filter (· ≤ limit)
  | _ => if isCode unsigned then none else Text.natural? unsigned

/-- The greatest integer that is told from text in every base. -/
def largestInteger : Nat := 0xffffffffffffffffffffffffffffffff

/-- The distance from zero of the least such integer. -/
def leastDistance : Nat := 0x80000000000000000000000000000000

def integer? : Text → Option Int
  | '-' :: rest => (magnitude? leastDistance rest).map fun value => -(value : Int)
  | '+' :: rest => (magnitude? largestInteger rest).map fun value => (value : Int)
  | text => (magnitude? largestInteger text).map fun value => (value : Int)

def exponent? : Text → Option Int
  | '-' :: digits => (Text.natural? digits).map fun value => -(value : Int)
  | '+' :: digits => (Text.natural? digits).map fun value => (value : Int)
  | digits => (Text.natural? digits).map fun value => (value : Int)

/-- The digits of a number with the power of ten that they are multiplied by. -/
def decimal? (unsigned : Text) : Option (Nat × Int) :=
  let mantissa := unsigned.takeWhile fun character => character != 'e' && character != 'E'
  let power? := match unsigned.drop mantissa.length with
    | [] => some 0
    | _ :: exponent => exponent? exponent
  let (whole, fraction) := (Text.cut? mantissa ".").getD (mantissa, [])
  match power?, Text.natural? (whole ++ fraction) with
  | some power, some value => some (value, power - fraction.length)
  | _, _ => none

/-- Half a unit above the greatest number that floats of 64 bits hold. -/
def floatLimit : Nat := Nat.pow 2 1024 - Nat.pow 2 970

/-- Numbers that no float of 64 bits holds are text. -/
def isFinite (value : Nat) (power : Int) : Bool :=
  value == 0 || power < 0 || (power ≤ 400 && value * Nat.pow 10 power.toNat < floatLimit)

def infinities : List Text := [".inf", ".Inf", ".INF"]

def nans : List Text := [".nan", ".NaN", ".NAN"]

def isFraction (text : Text) : Bool :=
  let unsigned := match text with
    | '+' :: rest | '-' :: rest => rest
    | _ => text
  infinities.contains unsigned || nans.contains text ||
    (!isCode unsigned && (decimal? unsigned).any fun number => isFinite number.1 number.2)

def meaning (text : Text) : PlainMeaning :=
  if isNothing text then .nothing
  else if booleans.contains text then .boolean
  else match integer? text with
    | some value => .integer value
    | none => if isFraction text then .fraction else .text

end Plain

namespace Data

def untagged : Data → Data
  | .tagged _ value => untagged value
  | data => data

/-- Where a text is expected, unquoted text is always one, and tags do not matter. -/
def text? (data : Data) : Option Text :=
  match data.untagged with
  | .text value => some value
  | .plain value => some value
  | _ => none

/-- Where any value may be, unquoted text is one only if it means nothing else. -/
def ownText? : Data → Option Text
  | .text value => some value
  | .plain value => if Plain.meaning value = .text then some value else none
  | _ => none

def isNothing : Data → Bool
  | .plain value => Plain.isNothing value
  | _ => false

/-- An empty unquoted text stands for a list or a table without entries. -/
def entries? (data : Data) : Option (List (Text × Data)) :=
  match data.untagged with
  | .table entries => some entries
  | .plain [] => some []
  | _ => none

def texts? : Data → Option (List Text)
  | .list items => items.mapM text?
  | .plain [] => some []
  | _ => none

def natural? (limit : Nat) : Data → Option Nat
  | .integer value => if 0 ≤ value ∧ value ≤ limit then some value.toNat else none
  | _ => none

def integer? : Data → Option Int
  | .integer value => some value
  | _ => none

def boolean? : Data → Option Bool
  | .boolean value => some value
  | _ => none

/-- A setting that was looked up: it may be missing by name, or at its position in a list. -/
inductive Setting where
  | given (data : Data)
  | unnamed
  | beyondEnd

/-- The settings with the given names, in their order; a list gives them by position. A name may be
used once, and unknown names are ignored. A list must not be longer if `isExact` is set. -/
def settings? (isExact : Bool) (names : List Text) (data : Data) : Option (List Setting) :=
  match data.untagged with
  | .list items =>
      if isExact ∧ names.length < items.length then none
      else some (names.mapIdx fun index _ => match items[index]? with
        | some item => .given item
        | none => .beyondEnd)
  | _ => match data.entries? with
    | none => none
    | some entries =>
        if names.all fun name => (entries.countP fun entry => entry.1 == name) ≤ 1 then
          some (names.map fun name => match entries.lookup name with
            | some item => .given item
            | none => .unnamed)
        else none

namespace Setting

variable {α : Type}

def required? (decode : Data → Option α) : Setting → Option α
  | .given data => decode data
  | .unnamed | .beyondEnd => none

def withDefault? (decode : Data → Option α) (initial : α) : Setting → Option α
  | .given data => decode data
  | .unnamed | .beyondEnd => some initial

/-- A setting that stands for nothing counts as missing. -/
def optional? (decode : Data → Option α) : Setting → Option (Option α)
  | .given data => if data.isNothing then some none else (decode data).map some
  | .unnamed => some none
  | .beyondEnd => none

end Setting

end Data

end ManagementShell

import ManagementShell.Masking
import ManagementShell.Text.Numeral

/-
This file reads host strings: an address or a name, with credentials in front of an at-sign.
-/

namespace ManagementShell
open Text

/-- An IPv4 address is the number that its four bytes form. -/
abbrev Address := Nat

namespace Address

/-- A part has at most three digits and no leading zero. -/
def octet? (text : Text) : Option Nat :=
  if text.length ≤ 3 ∧ (text.length = 1 ∨ text.head? ≠ some '0') then
    match natural? text with
    | some value => if value ≤ 255 then some value else none
    | none => none
  else none

def parse? (text : Text) : Option Address :=
  match (splitOn text '.').mapM octet? with
  | some [first, second, third, fourth] =>
      some (((first * 256 + second) * 256 + third) * 256 + fourth)
  | _ => none

def write (address : Address) : Text :=
  join "." [ofNat (address / 16777216), ofNat (address / 65536 % 256),
    ofNat (address / 256 % 256), ofNat (address % 256)]

/-- The addresses from the first to the last in ascending order. -/
def between (first last : Address) : List Address :=
  (List.range (last + 1 - first)).map (first + ·)

end Address

inductive Credentials where
  | absent
  | user (name : Text)
  | full (name password : Text)
  deriving DecidableEq, Repr

def Credentials.written : Credentials → Text
  | .absent => []
  | .user name => name ++ "@"
  | .full name password => name ++ ":" ++ password ++ "@"

/-- The password is not shown. -/
def Credentials.shown : Credentials → Text
  | .absent => []
  | .user name => name ++ "@"
  | .full name _ => name ++ ":" ++ Masking.mask ++ "@"

structure Host where
  credentials : Credentials
  name : Text
  deriving DecidableEq, Repr

namespace Host

def shown (host : Host) : Text := host.credentials.shown ++ host.name

def isLabelCharacter (character : Char) : Bool := character.isAlphanum || character == '-'

def isLabel (label : Text) : Bool :=
  label != [] && decide (label.length ≤ 63) && label.head? != some '-' &&
    label.getLast? != some '-' && label.all isLabelCharacter

/-- Only the form of a name is checked; one dot may end it. -/
def isName (text : Text) : Bool :=
  let name := if text.getLast? = some '.' then text.dropLast else text
  name != [] && decide (text.length ≤ 255) && (splitOn name '.').all isLabel

def isAddress (text : Text) : Bool := (Address.parse? text).isSome

/-- A user without a password is allowed, an empty user or an empty password is not. -/
def credentials? (text : Text) : Option Credentials :=
  match cut? text ":" with
  | some (name, password) => if name ≠ [] ∧ password ≠ [] then some (.full name password) else none
  | none => if text ≠ [] then some (.user text) else none

/-- The last at-sign ends the credentials. -/
def parse? (text : Text) : Option Host :=
  let entry := trim text
  let parts? : Option (Credentials × Text) := match cutLast? entry '@' with
    | some (before, name) => (credentials? before).map fun credentials => (credentials, name)
    | none => some (.absent, entry)
  match parts? with
  | some (credentials, name) =>
      if isAddress name || isName name then some ⟨credentials, name⟩ else none
  | none => none

/-- The hosts of a range of addresses; each has the credentials that stand before the first. -/
def range? (text : Text) : Option (List Text) :=
  match cut? text "-" with
  | none => none
  | some (first, last) => match parse? first with
    | none => none
    | some start => match Address.parse? start.name, Address.parse? (trim last) with
      | some lower, some upper =>
          if lower ≤ upper then
            some ((Address.between lower upper).map fun address =>
              start.credentials.written ++ address.write)
          else none
      | _, _ => none

end Host

end ManagementShell

import ManagementShell.Xml.Character

/-
This file resolves character references and normalizes line ends in text and in attribute values.
-/

namespace ManagementShell.Xml
open Text

def hexadecimalDigit? (digit : Char) : Option Nat :=
  let code := digit.toNat
  if digit.isDigit then some (code - 48)
  else if 97 ≤ code ∧ code ≤ 102 then some (code - 87)
  else if 65 ≤ code ∧ code ≤ 70 then some (code - 55)
  else none

def decimalDigit? (digit : Char) : Option Nat :=
  if digit.isDigit then some (digit.toNat - 48) else none

/-- The number that digits of the given base denote, if it fits into 32 bits. -/
def number? (base : Nat) (digit? : Char → Option Nat) (digits : Text) : Option Nat :=
  match digits.mapM digit? with
  | none | some [] => none
  | some values =>
      let number := values.foldl (fun value digit => base * value + digit) 0
      if number < 0x100000000 then some number else none

/-- A number that is the code of no character denotes the replacement character. -/
def numbered? (number : Nat) : Option Char :=
  let character := if number.isValidChar then Char.ofNat number else '\uFFFD'
  if isCharacter character then some character else none

/-- The character that a reference denotes, given what stands between `&` and the semicolon. -/
def referenced? : Text → Option Char
  | '#' :: 'x' :: digits => (number? 16 hexadecimalDigit? digits).bind numbered?
  | '#' :: digits => (number? 10 decimalDigit? digits).bind numbered?
  | name =>
      if name = "quot" then some '"'
      else if name = "amp" then some '&'
      else if name = "apos" then some '\''
      else if name = "lt" then some '<'
      else if name = "gt" then some '>'
      else none

/-- A character with the mark that it was written as a reference. -/
structure Datum where
  character : Char
  isReference : Bool
  deriving DecidableEq, Repr

/-- The reference that is being read, if any, is given by what follows its `&`. -/
def dataFrom : Option Text → Text → Option (List Datum)
  | none, [] => some []
  | some _, [] => none
  | none, '&' :: rest => dataFrom (some []) rest
  | none, character :: rest => (dataFrom none rest).map (⟨character, false⟩ :: ·)
  | some name, ';' :: rest =>
      match referenced? name with
      | some character => (dataFrom none rest).map (⟨character, true⟩ :: ·)
      | none => none
  | some name, character :: rest => dataFrom (some (name ++ [character])) rest

def data? (text : Text) : Option (List Datum) := dataFrom none text

def literalData (text : Text) : List Datum := text.map fun character => ⟨character, false⟩

/-- The first flag says that a carriage return was read and not yet written, the second that the
character before was a reference; a character after a reference is kept as it is. -/
def contentFrom : Bool → Bool → List Datum → Text
  | pending, _, [] => if pending then ['\r'] else []
  | pending, afterReference, datum :: rest =>
      if datum.isReference || afterReference then
        let before := if pending then ['\r'] else []
        let returns := datum.character == '\r'
        before ++ (if returns then [] else [datum.character]) ++
          contentFrom returns datum.isReference rest
      else
        let before := if pending then ['\n'] else []
        if datum.character == '\r' then
          if rest.isEmpty then before ++ ['\n'] else before ++ contentFrom true false rest
        else if pending && datum.character == '\n' then before ++ contentFrom false false rest
        else before ++ datum.character :: contentFrom false false rest

/-- A carriage return, with a line feed after it or not, is read as a line feed. -/
def content (data : List Datum) : Text := contentFrom false false data

/-- Line ends and tabs in an attribute value are read as spaces. -/
def attributeValue : List Datum → Text
  | [] => []
  | datum :: rest =>
      if datum.isReference then datum.character :: attributeValue rest
      else if datum.character == '\r' && rest.head? == some ⟨'\n', false⟩ then attributeValue rest
      else (if datum.character == '\n' || datum.character == '\r' || datum.character == '\t'
        then ' ' else datum.character) :: attributeValue rest

end ManagementShell.Xml

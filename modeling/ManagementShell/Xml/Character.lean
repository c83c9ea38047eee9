import ManagementShell.Text

/-
This file holds the classes of characters that markup is made of.
-/

namespace ManagementShell.Xml

/-- Controls other than tab, line feed and carriage return, and two noncharacters, are excluded. -/
def isCharacter (character : Char) : Bool :=
  let code := character.toNat
  if code < 0x20 then code == 9 || code == 10 || code == 13 else code != 0xFFFE && code != 0xFFFF

def isSpace (character : Char) : Bool :=
  character == ' ' || character == '\t' || character == '\n' || character == '\r'

def nameStartRanges : List (Nat × Nat) := [
  (0xC0, 0xD6), (0xD8, 0xF6), (0xF8, 0x2FF), (0x370, 0x37D), (0x37F, 0x1FFF), (0x200C, 0x200D),
  (0x2070, 0x218F), (0x2C00, 0x2FEF), (0x3001, 0xD7FF), (0xF900, 0xFDCF), (0xFDF0, 0xFFFD),
  (0x10000, 0xEFFFF)]

def nameRanges : List (Nat × Nat) := [(0xB7, 0xB7), (0x300, 0x36F), (0x203F, 0x2040)]

def within (ranges : List (Nat × Nat)) (character : Char) : Bool :=
  ranges.any fun range => range.1 ≤ character.toNat && character.toNat ≤ range.2

def isNameStart (character : Char) : Bool :=
  if character.toNat < 0x80 then character.isAlpha || character == ':' || character == '_'
  else within nameStartRanges character

def isNameCharacter (character : Char) : Bool :=
  isNameStart character || character.isDigit || character == '-' || character == '.' ||
    within nameRanges character

end ManagementShell.Xml

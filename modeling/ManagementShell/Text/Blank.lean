import ManagementShell.Text

/-
This file holds the characters that count as white space and the trimming of texts.
-/

namespace ManagementShell.Text

/-- These are the characters with the Unicode property White_Space. -/
def isBlank (character : Char) : Bool :=
  let code := character.toNat
  (9 ≤ code && code ≤ 13) || code == 32 || code == 0x85 || code == 0xA0 || code == 0x1680 ||
    (0x2000 ≤ code && code ≤ 0x200A) || code == 0x2028 || code == 0x2029 || code == 0x202F ||
    code == 0x205F || code == 0x3000

def trimStart (text : Text) : Text := text.dropWhile isBlank

def trimEnd (text : Text) : Text := text.dropWhileEnd isBlank

def trim (text : Text) : Text := (text.trimStart).trimEnd

end ManagementShell.Text

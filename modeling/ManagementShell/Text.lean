/-
This file fixes the type of texts and the operations on them that the other modules share.
-/

namespace ManagementShell

/-- A text is a list of characters, so that every operation on it is a recursion on a list. -/
abbrev Text := List Char

instance : Coe String Text := ⟨String.toList⟩

namespace Text

/-- The rest of the text after the given beginning. -/
def after? (text beginning : Text) : Option Text := beginning.isPrefixOf? text

/-- The texts before and after the first occurrence of the mark. -/
def cut? (text mark : Text) : Option (Text × Text) :=
  match text with
  | [] => if mark = [] then some ([], []) else none
  | character :: rest =>
      match after? (character :: rest) mark with
      | some remainder => some ([], remainder)
      | none => (cut? rest mark).map fun parts => (character :: parts.1, parts.2)

/-- The texts before and after the last occurrence of the separator. -/
def cutLast? (text : Text) (separator : Char) : Option (Text × Text) :=
  match text with
  | [] => none
  | character :: rest =>
      match cutLast? rest separator with
      | some parts => some (character :: parts.1, parts.2)
      | none => if character = separator then some ([], rest) else none

def includes (text mark : Text) : Bool := (text.cut? mark).isSome

/-- The parts between separators; there is always at least one. -/
def splitOn (text : Text) (separator : Char) : List Text :=
  match text with
  | [] => [[]]
  | character :: rest =>
      if character = separator then [] :: splitOn rest separator
      else match splitOn rest separator with
        | [] => [[character]]
        | first :: others => (character :: first) :: others

/-- Lines end at a line feed, with a carriage return before it dropped; the last may lack the end. -/
def lines : Text → List Text
  | [] => []
  | '\n' :: rest => [] :: lines rest
  | '\r' :: '\n' :: rest => [] :: lines rest
  | character :: rest =>
      match lines rest with
      | [] => [[character]]
      | first :: others => (character :: first) :: others

def join (separator : Text) (parts : List Text) : Text := separator.intercalate parts

/-- The number `skip` counts the characters of an occurrence that was already replaced. -/
def replaceFrom (mark replacement : Text) : Nat → Text → Text
  | _, [] => []
  | skip + 1, _ :: rest => replaceFrom mark replacement skip rest
  | 0, character :: rest =>
      if mark.isPrefixOf (character :: rest) then
        replacement ++ replaceFrom mark replacement (mark.length - 1) rest
      else character :: replaceFrom mark replacement 0 rest

/-- Occurrences of a non-empty mark are replaced from left to right and do not overlap. -/
def replaceAll (text mark replacement : Text) : Text := replaceFrom mark replacement 0 text

/-- The number `skip` counts the characters of an occurrence that was already counted. -/
def occurrencesFrom (mark : Text) : Nat → Text → Nat
  | _, [] => 0
  | skip + 1, _ :: rest => occurrencesFrom mark skip rest
  | 0, character :: rest =>
      if mark.isPrefixOf (character :: rest) then
        occurrencesFrom mark (mark.length - 1) rest + 1
      else occurrencesFrom mark 0 rest

/-- The number of occurrences of a non-empty mark, counted from left to right without overlap. -/
def occurrences (text mark : Text) : Nat := occurrencesFrom mark 0 text

def dropWhileEnd (drop : Char → Bool) (text : Text) : Text :=
  (text.reverse.dropWhile drop).reverse

def endsWith (text ending : Text) : Bool := ending.isSuffixOf text

/-- The text is filled up with spaces on the right. -/
def padRight (width : Nat) (text : Text) : Text :=
  text ++ List.replicate (width - text.length) ' '

/-- Only the letters A to Z have another case here, since no word of the language has others. -/
def toLower (text : Text) : Text := text.map Char.toLower

end Text

end ManagementShell

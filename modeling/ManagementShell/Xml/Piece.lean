import ManagementShell.Xml.Reference

/-
This file cuts a document into pieces: tags, character data, and what carries no data.
-/

namespace ManagementShell.Xml
open Text

/-- A name as written, with the qualifier before the colon empty when there is none. -/
structure Name where
  qualifier : Text
  base : Text
  deriving DecidableEq, Repr

inductive Piece where
  | opening (name : Name) (attributes : List (Name × Text)) (isEmpty : Bool)
  | closing (name : Name)
  | text (content : Text)
  /-- Character data that may stand outside the root element. -/
  | blank (content : Text)
  /-- A comment or a processing instruction. -/
  | silent
  deriving DecidableEq, Repr

def skipSpaces (text : Text) : Text := text.dropWhile isSpace

/-- The text before the mark, which must contain proper characters only, and the text after it. -/
def upTo? (text mark : Text) : Option (Text × Text) :=
  match text.cut? mark with
  | some (before, after) => if before.all isCharacter then some (before, after) else none
  | none => none

def name? (text : Text) : Option (Name × Text) :=
  let written := text.takeWhile isNameCharacter
  let rest := text.dropWhile isNameCharacter
  match Text.splitOn written ':' with
  | [base] => if base.head?.any isNameStart then some (⟨[], base⟩, rest) else none
  | [qualifier, base] =>
      if qualifier.head?.all isNameStart && base.head?.any isNameStart then
        some (⟨qualifier, base⟩, rest)
      else none
  | _ => none

/-- The value of an attribute after its opening quote. -/
def quotedValue? (quote : Char) (text : Text) : Option (Text × Text) :=
  match upTo? text [quote] with
  | some (value, rest) => if '<' ∈ value then none else some (value, rest)
  | none => none

/-- The name and the value of an attribute as written. -/
def attribute? (text : Text) : Option (Name × Text × Text) :=
  match name? text with
  | none => none
  | some (name, afterName) =>
      match skipSpaces afterName with
      | '=' :: afterSign =>
          match skipSpaces afterSign with
          | '"' :: rest => (quotedValue? '"' rest).map fun part => (name, part)
          | '\'' :: rest => (quotedValue? '\'' rest).map fun part => (name, part)
          | _ => none
      | _ => none

/-- The attributes of a tag, the mark that it is empty, and the text after it. A space must stand
before each attribute. -/
def attributes? (text : Text) : Option (List (Name × Text) × Bool × Text) :=
  match skipSpaces text with
  | '/' :: '>' :: rest => some ([], true, rest)
  | '>' :: rest => some ([], false, rest)
  | start =>
      if text.head?.any isSpace then
        match attribute? start with
        | none => none
        | some (name, written, rest) =>
            if rest.length < text.length then
              match data? written, attributes? rest with
              | some data, some (others, isEmpty, after) =>
                  some ((name, attributeValue data) :: others, isEmpty, after)
              | _, _ => none
            else none
      else none
termination_by text.length

def opening? (text : Text) : Option (Piece × Text) :=
  match name? text with
  | none => none
  | some (name, afterName) => match attributes? afterName with
    | some (attributes, isEmpty, rest) => some (.opening name attributes isEmpty, rest)
    | none => none

def closing? (text : Text) : Option (Piece × Text) :=
  match name? text with
  | none => none
  | some (name, afterName) => match skipSpaces afterName with
    | '>' :: rest => some (.closing name, rest)
    | _ => none

/-- Two hyphens must not stand inside a comment, nor one at its end. -/
def comment? (text : Text) : Option (Piece × Text) :=
  match upTo? text "-->" with
  | some (inside, rest) =>
      if inside.includes "--" || inside.getLast? == some '-' then none else some (.silent, rest)
  | none => none

def section? (text : Text) : Option (Piece × Text) :=
  match upTo? text "]]>" with
  | some (inside, rest) => some (.text (content (literalData inside)), rest)
  | none => none

/-- A document may be declared only at its beginning. -/
def instruction? (text : Text) : Option (Piece × Text) :=
  if ("xml " : Text).isPrefixOf text then none
  else if text.head?.any isNameStart then
    match upTo? (skipSpaces (text.dropWhile isNameCharacter)) "?>" with
    | some (_, rest) => some (.silent, rest)
    | none => none
  else none

def characters? (text : Text) : Option (Piece × Text) :=
  let written := text.takeWhile (· != '<')
  if written.all isCharacter && !includes written "]]>" then
    match data? written with
    | some data =>
        let piece := if written.all isSpace then Piece.blank else Piece.text
        some (piece (content data), text.dropWhile (· != '<'))
    | none => none
  else none

/-- The first piece of a text that is not empty, and the text after it. -/
def piece? : Text → Option (Piece × Text)
  | '<' :: '!' :: '-' :: '-' :: rest => comment? rest
  | '<' :: '!' :: rest => match after? rest "[CDATA[" with
    | some inside => section? inside
    | none => none
  | '<' :: '?' :: rest => instruction? rest
  | '<' :: '/' :: rest => closing? rest
  | '<' :: rest => opening? rest
  | text => characters? text

/-- All pieces of a text. -/
def pieces? (text : Text) : Option (List Piece) :=
  if text = [] then some []
  else match piece? text with
    | none => none
    | some (piece, rest) =>
        if rest.length < text.length then (pieces? rest).map (piece :: ·) else none
termination_by text.length

/-- The text after an attribute of the declaration, which must be followed by a space or by the end
of the declaration. -/
def declared? (text : Text) : Option Text :=
  match attribute? text with
  | some (_, _, rest) =>
      if rest.head?.any isSpace then some (skipSpaces rest)
      else if ("?>" : Text).isPrefixOf rest then some rest
      else none
  | none => none

/-- The text after the declaration, whose `<?xml` and space were read. It names a version, then may
name an encoding and say whether the document stands alone. -/
def afterDeclaration? (text : Text) : Option Text :=
  let start := skipSpaces text
  if ("version" : Text).isPrefixOf start then
    match declared? start with
    | none => none
    | some afterVersion =>
        let afterEncoding? := if ("encoding" : Text).isPrefixOf afterVersion then
          declared? afterVersion else some afterVersion
        match afterEncoding? with
        | none => none
        | some afterEncoding =>
            let end? := if ("standalone" : Text).isPrefixOf afterEncoding then
              (attribute? afterEncoding).map fun part => part.2.2 else some afterEncoding
            (end?.map skipSpaces).bind fun rest => rest.after? "?>"
  else none

/-- The text without a byte order mark and a declaration at its beginning. -/
def body? (text : Text) : Option Text :=
  let start := match text with
    | '\uFEFF' :: rest => rest
    | _ => text
  match after? start "<?xml " with
  | some rest => afterDeclaration? rest
  | none => some start

end ManagementShell.Xml

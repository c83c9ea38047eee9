import ManagementShell.Text.Blank

/-
This file writes a document with one tag on a line, indented by its depth.
-/

namespace ManagementShell.Xml
open Text

/-- The depth of the next tag, and whether the last line has ended. -/
structure Cursor where
  depth : Nat
  endsLine : Bool

def margin (depth : Nat) : Text := List.replicate depth ' '

/-- An opening tag ends its line only if another element opens next. -/
def opensElement (rest : Text) : Bool :=
  match trimStart rest with
  | '<' :: '/' :: _ => false
  | '<' :: _ => true
  | _ => false

/-- What is written for a tag, where text stands before it and the rest behind it. -/
def writeTag (cursor : Cursor) (text tag rest : Text) : Cursor × Text :=
  match tag with
  | '<' :: '/' :: _ =>
      let depth := cursor.depth - 1
      let start := if text = [] && cursor.endsLine then margin depth else []
      (⟨depth, true⟩, text ++ start ++ tag ++ "\n")
  | _ =>
      let written := text ++ margin cursor.depth ++ tag
      if (tag.after? "<?").isSome || (tag.after? "<!").isSome || tag.endsWith "/>" then
        (⟨cursor.depth, true⟩, written ++ "\n")
      else if opensElement rest then (⟨cursor.depth + 1, true⟩, written ++ "\n")
      else (⟨cursor.depth + 1, false⟩, written)

/-- The text before a tag and the beginning of the tag, if it has begun, were already read. -/
def indentedFrom (cursor : Cursor) (text : Text) : Option Text → Text → Text
  | _, [] => []
  | none, character :: rest =>
      if character = '<' then indentedFrom cursor text (some "<") rest
      else indentedFrom cursor (text ++ [character]) none rest
  | some tag, character :: rest =>
      if character = '>' then
        let written := writeTag cursor (trim text) (tag ++ ">") rest
        written.2 ++ indentedFrom written.1 [] none rest
      else indentedFrom cursor text (some (tag ++ [character])) rest

/-- Tags are found by their brackets alone; what follows the last one is left out. -/
def indented (document : Text) : Text := indentedFrom ⟨0, false⟩ [] none document

end ManagementShell.Xml

import ManagementShell.Element.Outline
import ManagementShell.Xml.Document
import ManagementShell.Xml.Indented

/-
This file turns the output of a call into a response: a tree of elements and a text.
-/

namespace ManagementShell
open Text

structure Response where
  raw : Text
  xml : Text
  text : Text
  tree : Option Element
  deriving Repr

namespace Response

/-- This is the response before any call and after a failed one. -/
def empty : Response := ⟨[], [], [], none⟩

/-- The length of the prologue that the text begins with; a prologue is on one line. -/
def prologueLength? (text : Text) : Option Nat :=
  match text.after? "<?xml version=" with
  | none => none
  | some rest =>
      let inside := rest.takeWhile fun character => character != '>' && character != '\n'
      match rest.drop inside.length with
      | '>' :: _ => some (inside.length + 15)
      | _ => none

/-- The text without prologues, and whether there was one; `skip` counts the characters of a
prologue that was already found. -/
def withoutPrologues : Nat → Text → Bool × Text
  | _, [] => (false, [])
  | skip + 1, _ :: rest => withoutPrologues skip rest
  | 0, character :: rest =>
      match prologueLength? (character :: rest) with
      | some length => (true, (withoutPrologues (length - 1) rest).2)
      | none =>
          let stripped := withoutPrologues 0 rest
          (stripped.1, character :: stripped.2)

/-- Output with prologues may hold several documents, so it is put into one element. The lines are
trimmed and joined. -/
def normalise (raw : Text) : Text :=
  let stripped := withoutPrologues 0 raw
  let document : Text :=
    if stripped.1 then "<Results>" ++ stripped.2 ++ "</Results>" else raw
  (lines document).flatMap trim

/-- Output that is no document is kept as it is. -/
def ofOutput (raw : Text) : Response :=
  let xml := normalise raw
  match Xml.parse? xml with
  | some root => ⟨raw, xml, root.outline, some root⟩
  | none => ⟨raw, xml, raw, none⟩

def isEmpty (response : Response) : Bool := response.text.isEmpty

/-- The parts of the text end with blank lines. -/
def parts (response : Response) : Nat := response.text.occurrences "\n\n"

/-- The response as the session's format asks for it. -/
def shown (response : Response) (format : Text) : Text :=
  if format = "xml" then response.xml ++ "\n"
  else if format = "prettyxml" ∧ response.tree.isSome then Xml.indented response.xml
  else response.text

end Response

end ManagementShell

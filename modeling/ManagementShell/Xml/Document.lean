import ManagementShell.Element
import ManagementShell.Text.Blank
import ManagementShell.Xml.Piece

/-
This file builds the root element of a document from its pieces.
-/

namespace ManagementShell.Xml
open Text

/-- The names of spaces of names in the order in which they are looked up; the default has the
empty qualifier. -/
abbrev Scope := List (Text × Text)

def xmlSpace : Text := "http://www.w3.org/XML/1998/namespace"

def declarationSpace : Text := "http://www.w3.org/2000/xmlns/"

/-- Declarations of an inner element come first and hide those of the elements around it. -/
def Scope.enter (outer own : Scope) : Scope :=
  if own = [] then outer
  else outer.foldl (fun scope entry =>
    if scope.any fun other => other.1 == entry.1 then scope else scope ++ [entry]) own

/-- The declarations among the attributes of a tag, if they are allowed. -/
def declarations? : List (Name × Text) → Option Scope
  | [] => some []
  | (name, value) :: rest =>
      match declarations? rest with
      | none => none
      | some others =>
          if name.qualifier = "xmlns" then
            if value == declarationSpace || (name.base == "xml") != (value == xmlSpace) then none
            else if others.any fun other => other.1 == name.base then none
            else some (if value = xmlSpace then others else (name.base, value) :: others)
          else if name.base = "xmlns" then
            if value = declarationSpace ∨ value = xmlSpace then none
            else some (([], value) :: others)
          else some others

def isDeclaration (name : Name) : Bool := name.qualifier == "xmlns" || name.base == "xmlns"

/-- The space of an attribute; one without a qualifier is in none. -/
def attributeSpace? (scope : Scope) (qualifier : Text) : Option (Option Text) :=
  if qualifier = [] then some none
  else if qualifier = "xml" then some (some xmlSpace)
  else (scope.lookup qualifier).map some

/-- The attributes without qualifiers; no two may have the same name in the same space. -/
def resolved? (scope : Scope) :
    List (Option Text × Text) → List (Name × Text) → Option (List (Text × Text))
  | _, [] => some []
  | seen, (name, value) :: rest =>
      match attributeSpace? scope name.qualifier with
      | none => none
      | some space =>
          if (space, name.base) ∈ seen then none
          else (resolved? scope ((space, name.base) :: seen) rest).map ((name.base, value) :: ·)

/-- The name of an element is shown with the first qualifier in scope that stands for its space. -/
def shownName (scope : Scope) (space : Option Text) (base : Text) : Text :=
  match space.bind fun sought => scope.find? fun entry => entry.2 == sought with
  | some (qualifier, _) => if qualifier = [] then base else qualifier ++ ":" ++ base
  | none => base

/-- The scope and the tag of an element. -/
def tag? (outer : Scope) (name : Name) (attributes : List (Name × Text)) :
    Option (Scope × Tag) :=
  if name.qualifier = "xmlns" then none
  else match declarations? attributes with
    | none => none
    | some own =>
        let scope := outer.enter own
        match resolved? scope [] (attributes.filter fun entry => !isDeclaration entry.1) with
        | none => none
        | some kept =>
            let space := scope.lookup name.qualifier
            if space.isNone && name.qualifier != [] then none
            else some (scope, ⟨shownName scope space name.base, name.base, kept⟩)

/-- An element whose end is not yet read; its children are in reverse order. -/
structure Unclosed where
  name : Name
  scope : Scope
  tag : Tag
  text : Text
  children : List Element

def Unclosed.close (unclosed : Unclosed) : Element :=
  match unclosed.children with
  | [] => .mk unclosed.tag (trim unclosed.text) []
  | children => .mk unclosed.tag [] children.reverse

inductive Progress where
  | before
  | inside (inner : Unclosed) (outer : List Unclosed)
  | after (root : Element)

/-- A finished element becomes the root or a child of the innermost open element. -/
def attach (element : Element) : List Unclosed → Progress
  | [] => .after element
  | inner :: outer => .inside { inner with children := element :: inner.children } outer

def enter? (stack : List Unclosed) (name : Name) (attributes : List (Name × Text))
    (isEmpty : Bool) : Option Progress :=
  let outer := match stack with
    | [] => []
    | inner :: _ => inner.scope
  match tag? outer name attributes with
  | none => none
  | some (scope, tag) =>
      let unclosed : Unclosed := ⟨name, scope, tag, [], []⟩
      some (if isEmpty then attach unclosed.close stack else .inside unclosed stack)

/-- Outside the root element only what carries no data is allowed. -/
def advance? : Progress → Piece → Option Progress
  | progress, .silent => some progress
  | .before, .blank _ => some .before
  | .before, .opening name attributes isEmpty => enter? [] name attributes isEmpty
  | .before, _ => none
  | .inside inner outer, .blank content | .inside inner outer, .text content =>
      some (.inside { inner with text := inner.text ++ content } outer)
  | .inside inner outer, .opening name attributes isEmpty =>
      enter? (inner :: outer) name attributes isEmpty
  | .inside inner outer, .closing name =>
      if name = inner.name then some (attach inner.close outer) else none
  | .after root, .blank _ => some (.after root)
  | .after _, _ => none

def rootOf? (pieces : List Piece) : Option Element :=
  match pieces.foldlM advance? .before with
  | some (.after root) => some root
  | _ => none

/-- The root element of a well-formed document. -/
def parse? (text : Text) : Option Element :=
  match body? text with
  | none => none
  | some body => (pieces? body).bind rootOf?

end ManagementShell.Xml

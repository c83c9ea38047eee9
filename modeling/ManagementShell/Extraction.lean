import ManagementShell.Element
import ManagementShell.Element.Outline

/-
This file finds the values of fields in a tree of elements.
-/

namespace ManagementShell

/-- An occurrence of a field with the numbers of its node and of the node's parent. -/
structure Match where
  value : Text
  node : Nat
  parent : Option Nat
  deriving DecidableEq, Repr

namespace Extraction

/-- A selector goes by its name. -/
def isNamed (field : Text) (tag : Tag) : Bool :=
  tag.base == field ||
    (tag.base == Outline.selector && Element.attribute? tag "Name" == some field)

def isReached (limit : Option Nat) (found : List Match) : Bool :=
  match limit with
  | some count => count ≤ found.length
  | none => false

mutual

/-- The limit is looked at after each child, so at least one path is searched. -/
def searchFrom (field : Text) (limit : Option Nat) (found : List Match) (parent : Option Nat)
    (number : Nat) : Element → List Match
  | .mk tag text [] =>
      if isNamed field tag then found ++ [⟨text, number, parent⟩] else found
  | .mk _ _ (first :: rest) =>
      searchAmong field limit found (some number) (number + 1) (first :: rest)

def searchAmong (field : Text) (limit : Option Nat) (found : List Match) (parent : Option Nat)
    (number : Nat) : List Element → List Match
  | [] => found
  | first :: rest =>
      let now := searchFrom field limit found parent number first
      if isReached limit now then now
      else searchAmong field limit now parent (number + first.size) rest

end

/-- The occurrences of a field in document order. -/
def findAll (scope : Element.Place) (field : Text) (limit : Option Nat) : List Match :=
  searchFrom field limit [] scope.parent scope.number scope.element

end Extraction

structure Query where
  field : Text
  expected : Option Text
  position : Option Nat
  deriving DecidableEq, Repr

namespace Query

/-- A query is a name, or a name and a value with an equals sign between them. -/
def parse? (look : Text) (position : Option Nat) : Option Query :=
  match look.splitOn '=' with
  | [field] => some ⟨field, none, position⟩
  | [field, value] => some ⟨field, some value, position⟩
  | _ => none

/-- The occurrence at the position must have the expected value; without a position it is the first
with this value, or the first of all. -/
def find? (query : Query) (scope : Element.Place) : Option Match :=
  match query.position, query.expected with
  | none, some value =>
      (Extraction.findAll scope query.field none).find? fun found => found.value == value
  | position, expected =>
      match position.getD 1 with
      | 0 => none
      | index + 1 =>
          match (Extraction.findAll scope query.field (some (index + 1)))[index]? with
          | some found =>
              if expected = none ∨ expected = some found.value then some found else none
          | none => none

end Query

end ManagementShell

import ManagementShell.Text

/-
This file orders texts by their characters and sorts lists.
-/

namespace ManagementShell

/-- The order of words in a dictionary whose alphabet is the order of character codes. -/
def Text.precedes : Text → Text → Bool
  | _, [] => false
  | [], _ :: _ => true
  | first :: rest, other :: others =>
      first.toNat < other.toNat || (first == other && Text.precedes rest others)

/-- A row precedes another when its first differing cell does. -/
def Text.rowPrecedes : List Text → List Text → Bool
  | _, [] => false
  | [], _ :: _ => true
  | first :: rest, other :: others =>
      first.precedes other || (first == other && Text.rowPrecedes rest others)

/-- An element is put before the first one that it precedes. -/
def insertSorted {α : Type} (precedes : α → α → Bool) (added : α) : List α → List α
  | [] => [added]
  | first :: rest =>
      if precedes added first then added :: first :: rest
      else first :: insertSorted precedes added rest

/-- Equal elements keep their order. -/
def sort {α : Type} (precedes : α → α → Bool) (elements : List α) : List α :=
  elements.foldl (fun sorted added => insertSorted precedes added sorted) []

end ManagementShell

import ManagementShell.Order

/-
This file defines finite maps from names to values, with the names in ascending order.
-/

namespace ManagementShell

abbrev Table (α : Type) := List (Text × α)

namespace Table

variable {α : Type}

def get? (table : Table α) (name : Text) : Option α := table.lookup name

def contains (table : Table α) (name : Text) : Bool := (table.get? name).isSome

/-- A value that the name had before is replaced. -/
def insert (table : Table α) (name : Text) (value : α) : Table α :=
  match table with
  | [] => [(name, value)]
  | entry :: rest =>
      if entry.1 = name then (name, value) :: rest
      else if name.precedes entry.1 then (name, value) :: entry :: rest
      else entry :: insert rest name value

def erase (table : Table α) (name : Text) : Table α := table.filter fun entry => entry.1 != name

def names (table : Table α) : List Text := table.map Prod.fst

def ofList (entries : List (Text × α)) : Table α :=
  entries.foldl (fun table entry => table.insert entry.1 entry.2) []

end Table

end ManagementShell

import ManagementShell.Extraction
import ManagementShell.Order
import ManagementShell.Record
import ManagementShell.Response

/-
This file lays out the values of several fields as a table.
-/

namespace ManagementShell.Report
open Text

structure Column where
  name : Text
  values : List Text
  deriving DecidableEq, Repr

/-- This name stands for all fields that the response has. -/
def star : Text := "*"

/-- The first star gives the observed fields that are not requested by name; others are dropped. -/
def expandStar (observed requested : List Text) : List Text :=
  if requested.contains star then
    requested.takeWhile (· != star) ++ observed.filter (fun field => !requested.contains field) ++
      ((requested.dropWhile (· != star)).drop 1).filter (· != star)
  else requested

/-- A filter also needs its own field. -/
def sought (observed requested : List Text) (key : Text) : List Text :=
  let fields := expandStar observed requested
  if key ≠ [] ∧ !fields.contains key then fields ++ [key] else fields

/-- A field makes a column if it has one value for each part of the response. -/
def column (parts : Nat) (scope : Option Element.Place) (field : Text) : Except Record Column :=
  let values := match scope with
    | some place => (Extraction.findAll place field none).map Match.value
    | none => []
  if values = [] then
    .error ⟨.warning, "No data for field '" ++ field ++ "', skipping"⟩
  else if values.length ≠ parts then
    .error ⟨.warning, "Multi-value field '" ++ field ++ "', skipping"⟩
  else .ok ⟨field, values⟩

def columns (attempts : List (Except Record Column)) : List Column :=
  attempts.filterMap Except.toOption

def records (attempts : List (Except Record Column)) : List Record :=
  attempts.filterMap fun attempt => match attempt with
    | .error record => some record
    | .ok _ => none

/-- The rows have a cell for each column. -/
def rows (parts : Nat) (columns : List Column) : List (List Text) :=
  (List.range parts).map fun index => columns.map fun column => column.values.getD index []

/-- Rows are kept if the cell in the first column of the key has the value. -/
def kept (columns : List Column) (key value : Text) (rows : List (List Text)) :
    List (List Text) :=
  match columns.findIdx? fun column => column.name == key with
  | some index => rows.filter fun row => row[index]? == some value
  | none => rows

/-- A column is as wide as its name and its widest cell. -/
def widths (columns : List Column) (rows : List (List Text)) : List Nat :=
  columns.mapIdx fun index column =>
    (rows.map fun row => (row.getD index []).length).foldl max column.name.length

/-- Columns are two spaces apart. -/
def line (widths : List Nat) (cells : List Text) : Text :=
  trimEnd (join "  " (List.zipWith padRight widths cells)) ++ "\n"

/-- A key without a column hides nothing but columns without a name. -/
def hiddenName (columns : List Column) (key : Text) : Text :=
  if columns.any fun column => column.name == key then key else []

/-- The columns with the hidden name are left out. -/
def visible {α : Type} (columns : List Column) (hidden : Text) (cells : List α) : List α :=
  ((columns.zip cells).filter fun entry => entry.1.name != hidden).map Prod.snd

def table (columns : List Column) (hidden : Text) (rows : List (List Text)) : Text :=
  let shownWidths := visible columns hidden (widths columns rows)
  let shownLine := fun cells => line shownWidths (visible columns hidden cells)
  "\n" ++ shownLine (columns.map Column.name) ++
    line shownWidths (shownWidths.map fun width => List.replicate width '-') ++
    rows.flatMap shownLine ++ "\n"

/-- The table of the rows whose key has the value, and the warnings. There is no table without a
column to show. -/
def layOut (parts : Nat) (attempts : List (Except Record Column)) (key value : Text) :
    Option Text × List Record :=
  let found := columns attempts
  if found = [] ∨ found.map Column.name = [key] then (none, records attempts)
  else
    let shownRows := sort Text.rowPrecedes (kept found key value (rows parts found))
    (some (table found (hiddenName found key) shownRows), records attempts)

/-- The table of the requested fields, with a warning for each field that has no column. -/
def make (response : Response) (scope : Option Element.Place) (requested : List Text)
    (filter : Option (Text × Text)) : Option Text × List Record :=
  let place := match scope with
    | some place => some place
    | none => response.tree.map Element.rootPlace
  let observed := (response.tree.map Element.fields).getD []
  let (key, value) := filter.getD ([], [])
  layOut response.parts ((sought observed requested key).map (column response.parts place)) key value

end ManagementShell.Report

import ManagementShell.Extraction.Report
import ManagementShell.Session.State

/-
This file runs the commands that read the last response, and conditions.
-/

namespace ManagementShell.Session
open Text

variable {σ : Type}

def nothingExtracted : Record := ⟨.warning, "No data extracted from the last response"⟩

/-- The position that a find asks for; nothing if it is no positive number. -/
def position? (text : Text) : Option Nat :=
  match unsigned? largestNatural (trim text) with
  | some (number + 1) => some (number + 1)
  | _ => none

def clearTarget : Option Text → Action σ Unit
  | some name => clear name
  | none => pure ()

/-- The query is run in the scope, and the value of the match is bound to the variable. -/
def findQuery (look : Text) (name : Option Text) (position : Option Nat) :
    Action σ (Option Match) := do
  clearTarget name
  match Query.parse? look position with
  | none => fail (.script (.badFind look))
  | some query => match (← get).scope? with
    | none =>
        record nothingExtracted
        pure none
    | some place => match query.find? place, name with
      | some found, some name =>
          bind name (.text found.value)
          pure (some found)
      | found, _ => pure found

/-- A position that is no positive number finds nothing. -/
def find (setting : Setting σ) (look : Text) (name position : Option Text) :
    Action σ (Option Match) := do
  let expanded ← expand setting look
  match position with
  | none => findQuery expanded name none
  | some position =>
      match position? (← expand setting position) with
      | some number => findQuery expanded name (some number)
      | none => pure none

def findAll (setting : Setting σ) (field name : Text) : Action σ Bool := do
  let expanded ← expand setting field
  clear name
  match (← get).scope? with
  | none =>
      record nothingExtracted
      pure false
  | some place =>
      match (Extraction.findAll place expanded none).map Match.value with
      | [] => pure false
      | values =>
          bind name (.list values)
          pure true

def count (name : Text) : Action σ Bool := do
  bind name (.integer (← get).response.parts)
  pure true

/-- The action runs with a context, and none is left behind. -/
def withContext (number : Nat) (action : Action σ Bool) : Action σ Bool := fun session =>
  match action { session with context := some number } with
  | .ok done after => .ok done { after with context := none }
  | .error halt after => .error halt { after with context := none }

/-- The scope is narrowed to the parent of the match while the inner action runs. -/
def inContext (setting : Setting σ) (look : Text) (inner : Action σ Bool) : Action σ Bool := do
  let expanded ← expand setting look
  onlyIf ((splitOn expanded '=').length ≠ 2) (fail (.malformedCondition expanded))
  match ← find setting expanded none none with
  | none => fail (.script (.contextNotFound expanded))
  | some found => withContext (found.parent.getD found.node) inner

/-- The fields are separated by commas; empty ones are dropped. -/
def fieldNames (text : Text) : List Text := ((splitOn text ',').map trim).filter (· != [])

def reportFilter (setting : Setting σ) : Option Text → Action σ (Option (Text × Text))
  | none => pure none
  | some filter => do
      let expanded ← expand setting filter
      match expanded.cut? "=" with
      | some pair => pure (some pair)
      | none => fail (.malformedCondition expanded)

def report (setting : Setting σ) (fields : Text) (filter : Option Text) : Action σ Bool := do
  let names := fieldNames (← expand setting fields)
  let pair ← reportFilter setting filter
  let session ← get
  let place := session.context.bind fun _ => session.scope?
  let (table, records) := Report.make session.response place names pair
  recordAll records
  match table with
  | some text =>
      write text
      pure true
  | none => pure false

/-- The two sides of a condition, and whether they have to be equal. -/
def sides? (condition : Text) : Option (Text × Text × Bool) :=
  match condition.cut? "!=", condition.cut? "==", condition.cut? "=" with
  | some (left, right), _, _ => some (left, right, false)
  | none, some (left, right), _ => some (left, right, true)
  | none, none, some (left, right) => some (left, right, true)
  | none, none, none => none

/-- Both sides are compared after substitution. -/
def holds (setting : Setting σ) (condition : Text) : Action σ Bool := do
  match sides? condition with
  | none => fail (.malformedCondition condition)
  | some (left, right, expected) =>
      let first ← expand setting left
      let second ← expand setting right
      pure ((first == second) == expected)

end ManagementShell.Session

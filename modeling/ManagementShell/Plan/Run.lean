import ManagementShell.Plan
import ManagementShell.Session.Run

/-
This file runs the session of a plan.
-/

namespace ManagementShell.Plan
open Text Session

variable {σ : Type}

/-- This is printed beside the session's own output. -/
def print (text : Text) : Action σ Unit := emit (.console text)

/-- A preset is set like a variable; one that cannot be set is skipped with a warning. -/
def applyPreset (name value : Text) : Action σ Unit := do
  let session ← get
  let shown := if '$' :: name = Variable.password then Masking.mask
    else Masking.hideCredentials value
  if callLevel < session.store.verbosityLevel then print ("Set $" ++ name ++ " " ++ shown ++ "\n")
  match session.store.set ('$' :: name) value with
  | .ok (store, records) =>
      modify fun session => { session with store := store }
      recordAll records
  | .error cause => record ⟨.warning, "Skipping argument " ++ name ++ ": " ++ cause.message⟩

def applyPresets : List (Text × Text) → Action σ Unit
  | [] => pure ()
  | (name, value) :: rest => do
      applyPreset name value
      applyPresets rest

/-- All commands are run, up to one that quits; the flag says whether all have succeeded. -/
def runCommands (line : Text → Action σ Bool) : List Text → Action σ Bool
  | [] => pure true
  | command :: rest => do
      let done ← line command
      if (← get).quits then return done
      let others ← runCommands line rest
      pure (done && others)

def promptText : Text := "--> "

/-- Lines are read at the prompt up to the end of the input or one that quits. -/
def prompt (line : Text → Action σ Bool) : List Text → Action σ Unit
  | [] => print (promptText ++ "\n")
  | text :: rest => do
      print promptText
      discard (line (text.dropWhileEnd (· == '\r')))
      if !(← get).quits then prompt line rest

/-- The scripts are run up to one that fails or quits. -/
def runScripts (script : Text → Action σ Bool) : List Text → Action σ Bool
  | [] => pure true
  | path :: rest => do
      if !(← script path) then return false
      if (← get).quits then return true
      runScripts script rest

/-- The outcome of a session: the presets, the commands, and then the prompt or the scripts. -/
def run (setting : Setting σ) (bound : Nat) (plan : Plan) (input : Text) : Action σ Bool := do
  applyPresets plan.presets
  let done ← runCommands (runLine setting bound) plan.commands
  if (← get).quits then return done
  if plan.isInteractive then
    prompt (runLine setting bound) (Text.lines input)
    return done
  if ← runScripts (runScript setting bound) plan.scripts then return done
  return false

end ManagementShell.Plan

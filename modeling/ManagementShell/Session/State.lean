import ManagementShell.Connection
import ManagementShell.Session.Frame
import ManagementShell.Variable.Substitution

/-
This file defines the state of a session and the small actions that change it.
-/

namespace ManagementShell
open Text

/-- The time at each look at the clock, in nanoseconds and without the time slept, and the ways to
write a time. -/
structure Clock where
  reading : Nat → Nat
  date : Nat → Text
  stamp : Nat → Text

/-- What does not change in a session. -/
structure Setting (σ : Type) where
  catalog : Catalog
  client : ClientSettings
  peer : Peer σ
  clock : Clock

/-- The innermost frame comes first. The context is the number of a node of the response. -/
structure Session (σ : Type) where
  store : Store
  connection : Connection σ
  response : Response
  context : Option Nat
  frames : List Frame
  log : Option Location
  quits : Bool
  readings : Nat
  slept : Nat

/-- An action ends early with a failure, or because the steps that it may take are used up. -/
inductive Halt where
  | failed (cause : Failure)
  | exhausted
  deriving DecidableEq, Repr

namespace Session

variable {σ : Type}

/-- An action on a session; what it has done before it halts stays done. -/
abbrev Action (σ α : Type) := EStateM Halt (Session σ) α

def start (defaults : Defaults) (peer : σ) (files : FileTree) : Session σ where
  store := .ofDefaults defaults
  connection := ⟨peer, files, [], []⟩
  response := .empty
  context := none
  frames := []
  log := none
  quits := false
  readings := 0
  slept := 0

def fail {α : Type} (cause : Failure) : Action σ α := throw (.failed cause)

/-- The action is left out unless the condition holds. -/
def onlyIf (condition : Prop) [Decidable condition] (action : Action σ Unit) : Action σ Unit :=
  if condition then action else pure ()

/-- An outcome is used up: its failure halts the action. -/
def check {α : Type} : Except Failure α → Action σ α
  | .ok value => pure value
  | .error cause => fail cause

def onConnection {α : Type} (action : EStateM Failure (Connection σ) α) : Action σ α :=
  fun session => match action session.connection with
    | .ok value connection => .ok value { session with connection := connection }
    | .error cause connection => .error (.failed cause) { session with connection := connection }

def addEvent (session : Session σ) (event : Event) : Session σ :=
  { session with connection :=
      { session.connection with events := session.connection.events ++ [event] } }

def emit (event : Event) : Action σ Unit := modify fun session => session.addEvent event

def record (entry : Record) : Action σ Unit := emit (.record entry)

def recordAll : List Record → Action σ Unit
  | [] => pure ()
  | entry :: rest => do
      record entry
      recordAll rest

/-- This is written to the screen and not to the log. -/
def display (text : Text) : Action σ Unit := emit (.screen text)

def addToLog (text : Text) : Action σ Unit := modify fun session =>
  match session.log with
  | some location =>
      let noted := session.addEvent (.logged text)
      { noted with connection := { noted.connection with
          files := noted.connection.files.append location (encode text) } }
  | none => session

/-- This is written to the screen and to the log. -/
def write (text : Text) : Action σ Unit := do
  display text
  addToLog text

/-- The time that a look at the clock shows now. -/
def time (clock : Clock) (session : Session σ) : Nat :=
  clock.reading session.readings + session.slept

def lookAtClock (clock : Clock) : Action σ Nat := fun session =>
  .ok (session.time clock) { session with readings := session.readings + 1 }

def sleep (seconds : Nat) : Action σ Unit :=
  modify fun session => { session with slept := session.slept + seconds * 1000000000 }

def date (clock : Clock) (session : Session σ) : Text := clock.date (session.time clock)

/-- Variables are substituted; the password is masked. -/
def expand (setting : Setting σ) (text : Text) : Action σ Text := do
  let session ← get
  pure (session.store.expand (session.date setting.clock) text)

/-- Variables are substituted, the password too. -/
def expandSecret (setting : Setting σ) (text : Text) : Action σ Text := do
  let session ← get
  pure (session.store.expandSecret (session.date setting.clock) text)

/-- A variable is set as a script does, with warnings for the rules that the value breaks. -/
def assign (name value : Text) : Action σ Unit := do
  let session ← get
  let (store, records) ← check (session.store.set name value)
  set { session with store := store }
  recordAll records

def bind (name : Text) (value : Value) : Action σ Unit := do
  let session ← get
  let store ← check (session.store.bind name value)
  set { session with store := store }

def clear (name : Text) : Action σ Unit :=
  modify fun session => { session with store := session.store.clear name }

/-- The node to extract from is the root or what the context has narrowed it to. -/
def scope? (session : Session σ) : Option Element.Place :=
  match session.response.tree, session.context with
  | none, _ => none
  | some root, none => some root.rootPlace
  | some root, some number => root.place? number

/-- The current line number, if a script runs. -/
def lineNumber (session : Session σ) : Int := (session.store.integer? Variable.line).getD 0

/-- A failure is reported without credentials and with its place in the running script. -/
def reportFailure (message : Text) : Action σ Unit := do
  let session ← get
  let hidden := Masking.hideCredentials (session.store.hidePassword message)
  let placed := match session.frames with
    | frame :: _ => frame.name ++ ":" ++ ofInt session.lineNumber ++ " - " ++ hidden
    | [] => hidden
  record ⟨.error, placed⟩

end Session

end ManagementShell

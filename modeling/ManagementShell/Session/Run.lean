import ManagementShell.Arithmetic
import ManagementShell.Command.Reader
import ManagementShell.Session.Inspection
import ManagementShell.Session.Jump
import ManagementShell.Session.Remote

/-
This file executes commands, lines and scripts.
-/

namespace ManagementShell.Session
open Text

variable {σ : Type}

/-- This clears the terminal and moves its cursor to the beginning. -/
def clearScreen : Text := "\x1b[2J\x1b[1;1H"

def evaluate (setting : Setting σ) (name expression : Text) : Action σ Bool := do
  let expanded ← expand setting expression
  match Arithmetic.evaluate expanded with
  | .ok value =>
      assign name (ofInt value)
      pure true
  | .error fault => fail (.arithmetic expanded fault)

def sleepFor (setting : Setting σ) (text : Text) : Action σ Bool := do
  let expanded ← expand setting text
  match unsigned? largestNatural (trim expanded) with
  | some count =>
      sleep count
      pure true
  | none => fail (.script (.badSleep expanded))

def unset (name : Text) : Action σ Bool := do
  let session ← get
  let (defined, store) ← check (session.store.unset name)
  set { session with store := store }
  pure defined

/-- Whether a log keeps what the file holds. -/
def keepsFile (mode : Option Text) : Except Failure Bool :=
  match mode with
  | none => .ok false
  | some mode =>
      if mode = "w" then .ok false
      else if mode = "a" then .ok true
      else .error (.script (.badLogMode mode))

def openLog (path : Text) (mode : Option Text) : Action σ Unit := do
  let keeps ← check (keepsFile mode)
  let session ← get
  match session.connection.files.openForWriting path keeps with
  | .error fault => fail (.file fault)
  | .ok (location, files) =>
      set { session with
        log := some location, connection := { session.connection with files := files } }

def expandGiven (setting : Setting σ) : Option Text → Action σ (Option Text)
  | some text => some <$> expand setting text
  | none => pure none

/-- The log that was open before is closed, even when a new one cannot be opened. -/
def changeLog (setting : Setting σ) (path mode : Option Text) : Action σ Bool := do
  modify fun session => { session with log := none }
  match path with
  | none => pure true
  | some path =>
      let expanded ← expand setting path
      let expandedMode ← expandGiven setting mode
      openLog expanded expandedMode
      pure true

def batch (setting : Setting σ) (runFrame : Frame → Action σ Bool) (path : Text) :
    Action σ Bool := do
  let expanded ← expand setting path
  let frame ← check (Frame.load (← get).connection.files expanded false)
  runFrame frame

mutual

/-- A command either succeeds, does not succeed, or fails with a cause. -/
def execute (setting : Setting σ) (calls : Nat) (runFrame : Frame → Action σ Bool) :
    Command → Action σ Bool
  | .nothing => pure true
  | .batch path => batch setting runFrame path
  | .clear => do
      emit (.console clearScreen)
      pure true
  | .context look inner => inContext setting look (execute setting calls runFrame inner)
  | .count name => count name
  | .find look name position => do pure (← find setting look name position).isSome
  | .findAll field name => findAll setting field name
  | .gosub target => jump setting runFrame target true
  | .goto target => jump setting runFrame target false
  | .conditional condition inner => do
      if ← holds setting condition then execute setting calls runFrame inner else pure true
  | .log path mode => changeLog setting path mode
  | .print text => do
      write ((← expand setting text) ++ "\n")
      pure true
  | .quit => do
      modify fun session => { session with quits := true }
      pure true
  | .report fields filter => report setting fields filter
  | .leave => leave
  | .listVariables => do
      write (join "\n" (← get).store.listing ++ "\n")
      pure true
  | .assign name value => do
      assign name (← expand setting value)
      pure true
  | .evaluate name expression => evaluate setting name expression
  | .sleep seconds => sleepFor setting seconds
  | .unset name => unset name
  | .poll condition words => poll setting calls condition words
  | .invoke words condition operators => do
      let answered ← match condition with
        | some condition => poll setting calls condition words
        | none => call setting words
      if answered then executeAll setting calls runFrame operators else pure false

/-- Commands run one after the other until one does not succeed. -/
def executeAll (setting : Setting σ) (calls : Nat) (runFrame : Frame → Action σ Bool) :
    List Command → Action σ Bool
  | [] => pure true
  | first :: rest => do
      if ← execute setting calls runFrame first then executeAll setting calls runFrame rest
      else pure false

end

/-- The echo of a line, without credentials. -/
def echo (setting : Setting σ) (line : Text) : Action σ Unit := do
  let session ← get
  let hidden := Masking.hideCredentials (session.store.hidePassword (trim line))
  display (setting.clock.stamp (session.time setting.clock) ++ ": " ++ hidden ++ "\n")

/-- A hyphen in front of a line marks that its failure is ignored. -/
def isMarked (line : Text) : Bool := (trimStart line).head? == some '-'

/-- The outcome of a line; a failure is reported, and it counts as success on a marked line. -/
def settle (name : Text) (ignoresFailure : Bool) (action : Action σ Bool) : Action σ Bool :=
  fun session => match action session with
    | .ok true after => .ok true after
    | .ok false after => (do
        reportFailure (name ++ " failed")
        pure ignoresFailure : Action σ Bool) after
    | .error (.failed cause) after => (do
        reportFailure cause.message
        pure ignoresFailure : Action σ Bool) after
    | .error .exhausted after => .error .exhausted after

def executeLine (setting : Setting σ) (calls : Nat) (runFrame : Frame → Action σ Bool)
    (text : Text) : Action σ Bool := do
  let session ← get
  match Line.read session.connection.files.isFile text with
  | .error fault =>
      reportFailure fault.message
      pure (isMarked text)
  | .ok line =>
      onlyIf (!line.command.isNothing ∧ callLevel < session.store.verbosityLevel)
        (echo setting text)
      settle line.command.name line.ignoresFailure
        (execute setting calls runFrame line.command)

/-- The variables that name the place of execution. -/
def place (store : Store) (frame : Frame) : Store :=
  (store.put Variable.line (.integer (frame.cursor + 1))).put Variable.script (.text frame.name)

/-- The cursor of the innermost frame goes past the line that begins. -/
def begin (frame : Frame) (below : List Frame) : Action σ Unit := do
  modify fun session => { session with
    frames := { frame with cursor := frame.cursor + 1 } :: below
    store := place session.store frame }
  emit (.line (below.length + 1) frame)

/-- The line at the cursor of the innermost frame is executed. There is an outcome if the frame ends
with it: at its end, after a failure or a quit, and when there is no frame above the base. -/
def turn (line : Text → Action σ Bool) (base : Nat) : Action σ (Option Bool) := do
  let session ← get
  if session.quits ∨ session.frames.length ≤ base then pure (some true)
  else match session.frames with
    | [] => pure (some true)
    | frame :: below => match frame.lines[frame.cursor]? with
      | none => pure (some true)
      | some text => do
          begin frame below
          if ← line text then pure none else pure (some false)

/-- The frame above the base takes turns until one has an outcome. -/
def drive (line : Text → Action σ Bool) (base : Nat) : Nat → Action σ Bool
  | 0 => throw .exhausted
  | steps + 1 => do
      match ← turn line base with
      | some outcome => pure outcome
      | none => drive line base steps

def restore (store : Store) (name : Text) : Option Value → Store
  | some value => store.put name value
  | none => store.remove name

/-- The frames that were there before, and the place of execution that was before. -/
def leaveFrame (before after : Session σ) : Session σ :=
  { after with
    frames := after.frames.drop (after.frames.length - before.frames.length)
    store := restore (restore after.store Variable.line (before.store.stored? Variable.line))
      Variable.script (before.store.stored? Variable.script) }

/-- The body runs in a frame above those that are there, and knows how many these are. -/
def inFrame (frame : Frame) (body : Nat → Action σ Bool) : Action σ Bool := fun session =>
  match body session.frames.length { session with frames := frame :: session.frames } with
  | .ok outcome after => .ok outcome (leaveFrame session after)
  | .error halt after => .error halt (leaveFrame session after)

/-- The number bounds the depth of frames, and the steps and calls in each of them. -/
def runFrame (setting : Setting σ) : Nat → Frame → Action σ Bool
  | 0, _ => throw .exhausted
  | bound + 1, frame =>
      inFrame frame fun base =>
        drive (executeLine setting bound (runFrame setting bound)) base bound

/-- This executes a line that is typed. -/
def runLine (setting : Setting σ) (bound : Nat) (text : Text) : Action σ Bool :=
  executeLine setting bound (runFrame setting bound) text

def runSource (setting : Setting σ) (bound : Nat) (name source : Text) : Action σ Bool :=
  runFrame setting bound (.ofSource name source false)

def runScript (setting : Setting σ) (bound : Nat) (path : Text) : Action σ Bool := do
  match Frame.load (← get).connection.files path false with
  | .ok frame => runFrame setting bound frame
  | .error cause =>
      record ⟨.error, cause.message⟩
      pure false

end ManagementShell.Session

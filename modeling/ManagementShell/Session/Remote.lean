import ManagementShell.Extraction
import ManagementShell.Session.State

/-
This file runs remote calls in a session and polls until a response has a value.
-/

namespace ManagementShell.Session
open Text

variable {σ : Type}

def basis (setting : Setting σ) (session : Session σ) : Request.Basis :=
  ⟨setting.catalog, session.store, setting.client, session.connection.files⟩

def expandAll (setting : Setting σ) : List Text → Action σ (List Text)
  | [] => pure []
  | word :: rest => do
      let expanded ← expandSecret setting word
      let others ← expandAll setting rest
      pure (expanded :: others)

/-- The request for the words of a call; the last response is dropped before it is built. -/
def request (setting : Setting σ) (words : List Text) : Action σ Request := do
  let expanded ← expandAll setting words
  emit (.called expanded)
  let session ← get
  let (call, records) ← check (Call.ofWords session.store.passwordText expanded)
  recordAll records
  modify fun session => { session with response := .empty, context := none }
  let session ← get
  onConnection (Connection.build setting.peer (basis setting session) call)

/-- What is shown of a request before it is sent. -/
def announce (request : Request) : Action σ Unit := do
  display (request.invocation.shown ++ "\n\n")
  match request.invocation.payload with
  | some (first :: rest) => display (first :: rest)
  | _ => pure ()

/-- The time between two looks at the clock. -/
def timerLine (method : Text) (started ended : Nat) : Text :=
  "TIMER: " ++ method ++ " - " ++ ofNat ((ended - started) / 1000000) ++ " msecs\n\n"

def showTime (setting : Setting σ) (method : Text) (started : Nat) : Action σ Unit := do
  let ended ← lookAtClock setting.clock
  write (timerLine method started ended)

/-- What a request and its answer add to the log. -/
def logEntry (request : Request) (response : Response) : Text :=
  request.invocation.shown ++ "\n" ++ request.invocation.payload.getD [] ++ "\n" ++
    response.xml ++ "\n\n"

/-- The request is sent, and what the session shows of it depends on its verbosity. -/
def exchange (setting : Setting σ) (request : Request) : Action σ Response := do
  let store := (← get).store
  onlyIf (quietLevel < store.verbosityLevel) (announce request)
  let started ← lookAtClock setting.clock
  let output ← onConnection (Connection.send setting.peer request.invocation)
  let response := Response.ofOutput output.text
  onlyIf (quietLevel < store.verbosityLevel ∧ !response.isEmpty)
    (display (response.shown ((store.shown? Variable.format).getD [])))
  addToLog (logEntry request response)
  onlyIf (store.flag Variable.timer) (showTime setting request.method started)
  pure response

/-- A call replaces the response; it fails if the answer is empty. -/
def call (setting : Setting σ) (words : List Text) : Action σ Bool := do
  let request ← request setting words
  let response ← exchange setting request
  modify fun session => { session with response := response }
  pure (!response.isEmpty)

/-- A poll waits for a field to have a value. -/
structure Poll where
  field : Text
  value : Text
  interval : Nat
  timeout : Nat
  words : List Text
  deriving DecidableEq, Repr

namespace Poll

def query (poll : Poll) : Query := ⟨poll.field, some poll.value, none⟩

/-- The line that tells why polling goes on. -/
def progress (poll : Poll) (root : Element) : Text :=
  let actual := match Extraction.findAll root.rootPlace poll.field (some 1) with
    | found :: _ => " [" ++ found.value ++ "]"
    | [] => []
  "  Until: " ++ poll.field ++ " != " ++ poll.value ++ actual ++ "\n"

/-- Calls are made until one fails, one has the value, or the time is over after a call. -/
def run (setting : Setting σ) (poll : Poll) (started : Nat) : Nat → Action σ Bool
  | 0 => throw .exhausted
  | calls + 1 => do
      if !(← call setting poll.words) then return false
      let session ← get
      match session.response.tree with
      | none => return false
      | some root =>
          if (poll.query.find? root.rootPlace).isSome then return true
          onlyIf (callLevel < session.store.verbosityLevel) (display (poll.progress root))
          sleep poll.interval
          let ended ← lookAtClock setting.clock
          onlyIf (poll.timeout * 1000000000 < ended - started) (fail (.timeout poll.timeout))
          run setting poll started calls

end Poll

/-- A number of seconds that a variable holds; a negative one counts as zero. -/
def seconds (session : Session σ) (name : Text) : Nat :=
  ((session.store.integer? name).getD 0).toNat

/-- An interval and a timeout may stand before the words of the call. -/
def timing? (interval timeout : Text) (rest : List Text) : Option (Nat × Nat × List Text) :=
  match unsigned? largestNatural (trim interval), unsigned? largestNatural (trim timeout) with
  | some first, some second => if rest = [] then none else some (first, second, rest)
  | _, _ => none

/-- The interval, the timeout and the words of the call. -/
def timing (setting : Setting σ) (words : List Text) : Action σ (Nat × Nat × List Text) := do
  let session ← get
  let expanded := fun word => session.store.expand (session.date setting.clock) word
  let given := match words with
    | interval :: timeout :: rest => timing? (expanded interval) (expanded timeout) rest
    | _ => none
  pure (given.getD
    (session.seconds Variable.pollInterval, session.seconds Variable.pollTimeout, words))

def poll (setting : Setting σ) (calls : Nat) (condition : Text) (words : List Text) :
    Action σ Bool := do
  let expanded ← expand setting condition
  match splitOn expanded '=' with
  | [field, value] =>
      let (interval, timeout, method) ← timing setting words
      onlyIf (method = []) (fail (.script .nothingToPoll))
      let started ← lookAtClock setting.clock
      Poll.run setting ⟨field, value, interval, timeout, method⟩ started calls
  | _ => fail (.malformedCondition expanded)

end ManagementShell.Session

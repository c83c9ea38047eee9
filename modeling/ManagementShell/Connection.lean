import ManagementShell.Request
import ManagementShell.Response
import ManagementShell.Session.Frame

/-
This file sends invocations to a peer and discovers the endpoints that calls refer to.
-/

namespace ManagementShell
open Text

/-- What a session does, in the order in which it happens. The last three are not seen from outside:
the words of a call, the frame whose next line begins, and a move of the frame at a depth. -/
inductive Event where
  | record (record : Record)
  | screen (text : Text)
  | console (text : Text)
  /-- This is added to the log file. -/
  | logged (text : Text)
  | sent (invocation : Invocation)
  | called (words : List Text)
  | line (depth : Nat) (frame : Frame)
  | moved (depth : Nat) (move : Move)
  deriving DecidableEq, Repr

namespace Event

/-- The text that the event adds to the standard output. -/
def printed : Event → Text
  | .screen text | .console text => text
  | _ => []

def record? : Event → Option Record
  | .record noted => some noted
  | _ => none

end Event

/-- The other end of a connection. It may read and write files, and it fails with a reason. -/
structure Peer (σ : Type) where
  answer : Invocation → FileTree → σ → Except Text Output × FileTree × σ

/-- This peer gives its answers one after the other, and empty ones after the last. -/
def Peer.inTurn : Peer (List (Except Text Text)) where
  answer _ files answers := match answers with
    | [] => (.ok ⟨[], 0⟩, files, [])
    | .ok text :: rest => (.ok ⟨text, 0⟩, files, rest)
    | .error reason :: rest => (.error reason, files, rest)

/-- A discovered endpoint is found again for the same host, reference and choice. -/
structure CacheKey where
  host : Text
  reference : Text
  choice : Text
  deriving DecidableEq, Repr

abbrev Cache := List (CacheKey × Text)

structure Connection (σ : Type) where
  peer : σ
  files : FileTree
  cache : Cache
  events : List Event

namespace Connection

variable {σ : Type}

def report (event : Event) : EStateM Failure (Connection σ) Unit :=
  modify fun connection => { connection with events := connection.events ++ [event] }

/-- The invocation counts as sent even when the peer fails. -/
def send (peer : Peer σ) (invocation : Invocation) : EStateM Failure (Connection σ) Output := do
  let connection ← get
  let (answer, files, after) := peer.answer invocation connection.files connection.peer
  set { connection with
    peer := after, files := files, events := connection.events ++ [Event.sent invocation] }
  match answer with
  | .ok output => pure output
  | .error reason => throw (.transport reason)

/-- A reference to a class is its name after a colon. -/
def className? (reference : Text) : Option Text :=
  match reference.splitOn ':' with
  | [_, name] => some name
  | _ => none

/-- The endpoints of a class are asked for with a call of its own. -/
def discover (peer : Peer σ) (basis : Request.Basis) (method reference : Text) :
    EStateM Failure (Connection σ) Element := do
  match className? reference with
  | none => throw (.unresolved method (.badReference reference))
  | some name =>
      let call := (Call.ofMethod "GetEPR").add "Class" name
      let request ← Request.build basis (.none _) call
      report (.record ⟨.information, request.invocation.shown⟩)
      let output ← send peer request.invocation
      match (Response.ofOutput output.text).tree with
      | some root => pure root
      | none => throw (.unresolved method (.noResponse name))

/-- An endpoint is discovered and written. -/
def find (peer : Peer σ) (basis : Request.Basis) (method reference parameter : Text)
    (filter : Endpoint.Filter) (written : Endpoint → Text) :
    EStateM Failure (Connection σ) Text := do
  let root ← discover peer basis method reference
  match Endpoint.choose root parameter filter with
  | .error fault => throw (.unresolved method fault)
  | .ok endpoint => pure (written endpoint)

def keep (key : CacheKey) (value : Text) : EStateM Failure (Connection σ) Unit :=
  modify fun connection => { connection with cache := (key, value) :: connection.cache }

/-- An endpoint is discovered once for each host and choice, and then kept as it was written. -/
def lookup (peer : Peer σ) (basis : Request.Basis) (method reference parameter : Text)
    (filter : Endpoint.Filter) (written : Endpoint → Text) :
    EStateM Failure (Connection σ) Text := do
  let key : CacheKey :=
    ⟨(basis.store.shown? Variable.host).getD [], reference, filter.key parameter⟩
  match (← get).cache.lookup key with
  | some value => pure value
  | none =>
      let value ← find peer basis method reference parameter filter written
      keep key value
      pure value

def endpoints (peer : Peer σ) (basis : Request.Basis) :
    Request.Endpoints (Connection σ) where
  url method reference filter := lookup peer basis method reference "URL" filter Endpoint.url
  address method reference parameter filter :=
    lookup peer basis method reference parameter filter fun endpoint =>
      endpoint.address parameter

/-- A call is completed with the endpoints that it refers to. -/
def build (peer : Peer σ) (basis : Request.Basis) (call : Call) :
    EStateM Failure (Connection σ) Request :=
  Request.build basis (endpoints peer basis) call

end Connection

end ManagementShell

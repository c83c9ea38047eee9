import ManagementShell.Call
import ManagementShell.Catalog
import ManagementShell.Endpoint
import ManagementShell.Invocation
import ManagementShell.Variable.Store

/-
This file completes a call to a request: an invocation of the client program.
-/

namespace ManagementShell
open Text

/-- A call that is ready to be sent, with the text of its payload. -/
structure Request where
  method : Text
  invocation : Invocation
  deriving DecidableEq, Repr

namespace Request

/-- What a request is built from besides the call itself. -/
structure Basis where
  catalog : Catalog
  store : Store
  client : ClientSettings
  files : FileTree

/-- The ways to find the endpoints that a call refers to. -/
structure Endpoints (σ : Type) where
  url : (method reference : Text) → Endpoint.Filter → EStateM Failure σ Text
  address : (method reference parameter : Text) → Endpoint.Filter → EStateM Failure σ Text

/-- No endpoint can be found while another one is being discovered. -/
def Endpoints.none (σ : Type) : Endpoints σ where
  url method reference _ := throw (.unresolved method (.nestedReference reference))
  address method reference _ _ := throw (.unresolved method (.nestedReference reference))

/-- A value that refers to a file stands for the contents of the file. -/
def contents (files : FileTree) (parameter value : Text) : Except Failure Text :=
  match value.after? "file:" with
  | none => .ok value
  | some path => match files.readText path with
    | .ok text => .ok text
    | .error _ => .error (.unreadableReference path parameter)

/-- The values of a declared parameter; there are none if it is left out. -/
def values? (call : Call) (name : Text) (parameter : Parameter) :
    Except Failure (Option (List Text)) :=
  match call.arguments.get? name, parameter.fallback with
  | some given, _ => .ok (some given)
  | Option.none, Option.none => .error (.missingParameter call.method name)
  | Option.none, some fallback =>
      if fallback.values.all List.isEmpty then .ok Option.none else .ok (some fallback.values)

/-- The declared parameters in the order of their names with the values that are sent. -/
def resolve (files : FileTree) (call : Call) :
    Table Parameter → Except Failure (Table (List Text))
  | [] => .ok []
  | (name, parameter) :: rest =>
      match values? call name parameter with
      | .error failure => .error failure
      | .ok Option.none => resolve files call rest
      | .ok (some values) =>
          match values.mapM (contents files name) with
          | .error failure => .error failure
          | .ok texts => match resolve files call rest with
            | .error failure => .error failure
            | .ok others => .ok ((name, texts) :: others)

/-- A call whose operation is known and whose parameters are complete. -/
structure Prepared where
  call : Call
  operation : Operation
  filter : Endpoint.Filter
  selectors : Table (List Text)
  body : Table (List Text)
  host : Text

/-- Everything that can be missing is looked for before any endpoint is. -/
def prepare (basis : Basis) (call : Call) : Except Failure Prepared :=
  match basis.catalog.operation? basis.store.deviceText call.method with
  | Option.none => .error (.unknownMethod call.method)
  | some operation =>
      match resolve basis.files call operation.selectors with
      | .error failure => .error failure
      | .ok selectors => match resolve basis.files call operation.body with
        | .error failure => .error failure
        | .ok body =>
            let filter := ((call.first? "-eprselect").map Endpoint.Filter.parse).getD .empty
            match basis.store.shown? Variable.host with
            | some (first :: rest) =>
                .ok ⟨call, operation, filter, selectors, body, first :: rest⟩
            | _ => .error (.script .missingHost)

def schemaRoot : Text := "http://schemas.dmtf.org/wbem/wscim/1/cim-schema/"

/-- A template that is no address begins with a tag of four bytes, which is dropped. -/
def resource (template : Text) : Text :=
  let address := if (template.after? "http").isSome then template
    else schemaRoot ++ (dropBytes? 4 template).getD []
  address.replaceAll "+" ","

/-- The class of a meta method is a part of the path and not a selector. -/
def isClassOfMeta (method name : Text) : Bool :=
  Catalog.metaMethods.contains method && name == "Class"

def withSelectors (resource method : Text) (selectors : Table (List Text)) : Text :=
  let path := resource ++ selectors.flatMap fun entry =>
    if isClassOfMeta method entry.1 then entry.2.flatten else []
  let query := selectors.flatMap fun entry =>
    if isClassOfMeta method entry.1 then []
    else entry.2.map fun value => entry.1 ++ "=" ++ value
  if query = [] then path
  else path ++ (if '?' ∈ path then "," else "?") ++ join "," query

/-- The filters that a call may have, with the languages that they are written in. -/
def dialects : List (Text × Text) :=
  [("-wql", "http://schemas.microsoft.com/wbem/wsman/1/WQL"),
    ("-assoc", "http://schemas.dmtf.org/wbem/wsman/1/cimbinding/associationFilter"),
    ("-cql", "http://schemas.dmtf.org/wbem/cql/1/dsp0202.pdf")]

/-- The first filter that the call has is used. -/
def dialectArguments (call : Call) : List Text :=
  let used := dialects.findSome? fun entry =>
    (call.first? entry.1).map fun filter => [("--dialect=" : Text) ++ entry.2, "--filter=" ++ filter]
  used.getD []

/-- The file that a payload is written to. -/
def payloadLocation : Location := ["tmp", ".tmpPAYLOAD"]

def payloadPath : Text := "/" ++ join "/" payloadLocation

/-- The element of a value in a payload. -/
def payloadElement (name value : Text) : Text :=
  "  <p:" ++ name ++ ">" ++ value ++ "</p:" ++ name ++ ">\r\n"

def payload (action space elements : Text) : Text :=
  "<p:" ++ action ++ "_INPUT xmlns:p=\"" ++ space ++ "\">\r\n" ++ elements ++
    "</p:" ++ action ++ "_INPUT>\r\n"

/-- The parameters of the body as arguments. -/
def bodyArguments (body : Table (List Text)) : List Text :=
  body.flatMap fun entry => entry.2.flatMap fun value => ["-k", entry.1 ++ "=" ++ value]

/-- The request for a target, where the body is in the payload if there is one. -/
def assemble (basis : Basis) (prepared : Prepared) (target : Text) (payload : Option Text) :
    Request :=
  let call := prepared.call
  let operation := prepared.operation
  let action : List Text := match operation.verb with
    | .invoke => ["-a", operation.remoteName call.method]
    | _ => []
  let body := match payload with
    | some _ => []
    | Option.none => bodyArguments prepared.body
  let access : List Text := ["-h", prepared.host, "-P", (basis.store.shown? Variable.port).getD [], "-u",
    (basis.store.shown? Variable.login).getD [], "-p", basis.store.passwordText]
  let format : List Text := if call.method = "GetEPR" then ["-M", "epr"] else []
  let file : List Text := if payload.isSome then ["-J", payloadPath] else []
  { method := call.method
    invocation :=
      { program := basis.client.program
        arguments := [operation.verb.name] ++ action ++
          [withSelectors (resource target) call.method prepared.selectors] ++ body ++ access ++
          basis.client.flags ++ dialectArguments call ++ format ++ file
        payload := payload
        secret := basis.store.passwordText } }

/-- The reference of a value to an endpoint begins like this. -/
def referenceMark : Text := "EPR:"

/-- The element of a value; a reference is replaced by the address of its endpoint. -/
def element {σ : Type} (endpoints : Endpoints σ) (prepared : Prepared) (name value : Text) :
    EStateM Failure σ Text :=
  if value.includes referenceMark then
    endpoints.address prepared.call.method value name prepared.filter
  else pure (payloadElement name value)

/-- The elements of the values one after the other. -/
def elements {σ : Type} (endpoints : Endpoints σ) (prepared : Prepared) :
    List (Text × Text) → EStateM Failure σ Text
  | [] => pure []
  | (name, value) :: rest => do
      let first ← element endpoints prepared name value
      let others ← elements endpoints prepared rest
      pure (first ++ others)

/-- The parameters of the body, each with one value. -/
def Prepared.entries (prepared : Prepared) : List (Text × Text) :=
  prepared.body.flatMap fun entry => entry.2.map fun value => (entry.1, value)

/-- The target of the operation; a reference is replaced by its endpoint. -/
def target {σ : Type} (endpoints : Endpoints σ) (prepared : Prepared) : EStateM Failure σ Text :=
  if prepared.operation.target.includes Operation.endpointMark then
    endpoints.url prepared.call.method prepared.operation.target prepared.filter
  else pure prepared.operation.target

/-- The payload with the given elements. Its name space is the resource without a query. -/
def Prepared.payload (prepared : Prepared) (target inside : Text) : Text :=
  Request.payload (prepared.operation.remoteName prepared.call.method)
    (((resource target).splitOn '?').headD []) inside

/-- The endpoints of a prepared call are found, and then it is assembled. -/
def complete {σ : Type} (basis : Basis) (endpoints : Endpoints σ) (prepared : Prepared) :
    EStateM Failure σ Request := do
  let address ← target endpoints prepared
  if prepared.operation.hasPayload then
    let inside ← elements endpoints prepared prepared.entries
    pure (assemble basis prepared address (some (prepared.payload address inside)))
  else pure (assemble basis prepared address Option.none)

def build {σ : Type} (basis : Basis) (endpoints : Endpoints σ) (call : Call) :
    EStateM Failure σ Request :=
  match prepare basis call with
  | .error failure => throw failure
  | .ok prepared => complete basis endpoints prepared

end Request

end ManagementShell

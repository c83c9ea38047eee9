import ManagementShell.Connection
import ManagementShell.Proofs.Outcome

/-
This file shows which endpoints a build looks up, and what is found where discoveries are always
answered alike.
-/

namespace ManagementShell

variable {ε σ τ α β : Type}

def outcome : EStateM.Result ε σ α → Except ε α
  | .ok value _ => .ok value
  | .error cause _ => .error cause

def finalState : EStateM.Result ε σ α → σ
  | .ok _ after | .error _ after => after

/-- What an action ends with in any case is what its last state has. -/
theorem ends_iff_finalState {action : EStateM ε σ α} {before : σ} {property : σ → Prop} :
    Ends action before (fun _ after => property after) (fun _ after => property after) ↔
      property (finalState (action before)) := by
  unfold Ends
  cases action before <;> rfl

theorem eq_ok_of_outcome {result : EStateM.Result ε σ α} {value : α}
    (given : outcome result = .ok value) : result = .ok value (finalState result) := by
  cases result <;> cases given
  rfl

theorem eq_error_of_outcome {result : EStateM.Result ε σ α} {cause : ε}
    (given : outcome result = .error cause) : result = .error cause (finalState result) := by
  cases result <;> cases given
  rfl

@[simp] theorem outcome_pure (value : α) (before : σ) :
    outcome ((pure value : EStateM ε σ α) before) = .ok value := rfl

@[simp] theorem outcome_throw (cause : ε) (before : σ) :
    outcome ((throw cause : EStateM ε σ α) before) = .error cause := rfl

@[simp] theorem outcome_get (before : σ) :
    outcome ((get : EStateM ε σ σ) before) = .ok before := rfl

@[simp] theorem outcome_set (state before : σ) :
    outcome ((set state : EStateM ε σ PUnit) before) = .ok ⟨⟩ := rfl

@[simp] theorem outcome_modify (change : σ → σ) (before : σ) :
    outcome ((modify change : EStateM ε σ PUnit) before) = .ok ⟨⟩ := rfl

theorem outcome_bind (action : EStateM ε σ β) (next : β → EStateM ε σ α) (before : σ) :
    outcome ((action >>= next) before) =
      (outcome (action before)).bind fun value =>
        outcome (next value (finalState (action before))) := by
  simp only [bind, EStateM.bind]
  cases action before <;> rfl

/-- From related states, the actions end with the same outcome, and in related states. -/
def Matches (related : σ → τ → Prop) (first : EStateM ε σ α) (second : EStateM ε τ α) : Prop :=
  ∀ before other, related before other →
    outcome (first before) = outcome (second other) ∧
      related (finalState (first before)) (finalState (second other))

section

variable {related : σ → τ → Prop}

theorem matches_pure (value : α) :
    Matches related (pure value : EStateM ε σ α) (pure value : EStateM ε τ α) :=
  fun _ _ same => ⟨rfl, same⟩

theorem matches_throw (cause : ε) :
    Matches related (throw cause : EStateM ε σ α) (throw cause : EStateM ε τ α) :=
  fun _ _ same => ⟨rfl, same⟩

theorem Matches.bind {first : EStateM ε σ α} {second : EStateM ε τ α}
    {next : α → EStateM ε σ β} {follow : α → EStateM ε τ β}
    (begins : Matches related first second)
    (continues : ∀ value, Matches related (next value) (follow value)) :
    Matches related (first >>= next) (second >>= follow) := by
  intro before other same
  obtain ⟨sameOutcome, sameAfter⟩ := begins before other same
  simp only [Bind.bind, EStateM.bind]
  cases ran : first before with
  | ok value after =>
      rw [ran] at sameOutcome sameAfter
      cases ranToo : second other with
      | ok _ _ =>
          rw [ranToo] at sameOutcome sameAfter
          cases sameOutcome
          exact continues value _ _ sameAfter
      | error _ _ =>
          rw [ranToo] at sameOutcome
          cases sameOutcome
  | error cause after =>
      rw [ran] at sameOutcome sameAfter
      cases ranToo : second other with
      | ok _ _ =>
          rw [ranToo] at sameOutcome
          cases sameOutcome
      | error _ _ =>
          rw [ranToo] at sameOutcome sameAfter
          cases sameOutcome
          exact ⟨rfl, sameAfter⟩

end

/-- An endpoint that a build asks for: as the URL of its target, or as the address that is the value
of a parameter. -/
inductive Lookup where
  | url (reference : Text) (filter : Endpoint.Filter)
  | address (reference parameter : Text) (filter : Endpoint.Filter)
  deriving DecidableEq, Repr

namespace Lookup

def reference : Lookup → Text
  | .url reference _ | .address reference _ _ => reference

/-- The parameter that the choice among endpoints is made for. -/
def parameter : Lookup → Text
  | .url _ _ => "URL"
  | .address _ parameter _ => parameter

def filter : Lookup → Endpoint.Filter
  | .url _ filter | .address _ _ filter => filter

/-- The way in which the endpoint is written. -/
def written : Lookup → Endpoint → Text
  | .url _ _, endpoint => endpoint.url
  | .address _ parameter _, endpoint => endpoint.address parameter

end Lookup

namespace Request

def Endpoints.answer (endpoints : Endpoints σ) (method : Text) :
    Lookup → EStateM Failure σ Text
  | .url reference filter => endpoints.url method reference filter
  | .address reference parameter filter => endpoints.address method reference parameter filter

/-- The endpoints that are looked up for a prepared call, in their order. -/
def Prepared.lookups (prepared : Prepared) : List Lookup :=
  (if prepared.operation.target.includes Operation.endpointMark then
    [.url prepared.operation.target prepared.filter] else []) ++
  if prepared.operation.hasPayload then
    (prepared.entries.filter fun entry => entry.2.includes referenceMark).map fun entry =>
      .address entry.2 entry.1 prepared.filter
  else []

/-- The endpoints that a build looks up if none of them fails. -/
def lookups (basis : Basis) (call : Call) : List Lookup :=
  match prepare basis call with
  | .ok prepared => prepared.lookups
  | .error _ => []

section

variable {related : σ → τ → Prop} {endpoints : Endpoints σ} {others : Endpoints τ}
  {prepared : Prepared}

theorem element_matches {name value : Text}
    (agree : value.includes referenceMark = true → Matches related
      (endpoints.answer prepared.call.method (.address value name prepared.filter))
      (others.answer prepared.call.method (.address value name prepared.filter))) :
    Matches related (element endpoints prepared name value) (element others prepared name value) := by
  unfold element
  split
  · rename_i refers
    exact agree refers
  · exact matches_pure _

theorem elements_matches {entries : List (Text × Text)}
    (agree : ∀ entry ∈ entries, entry.2.includes referenceMark = true → Matches related
      (endpoints.answer prepared.call.method (.address entry.2 entry.1 prepared.filter))
      (others.answer prepared.call.method (.address entry.2 entry.1 prepared.filter))) :
    Matches related (elements endpoints prepared entries) (elements others prepared entries) := by
  induction entries with
  | nil => exact matches_pure _
  | cons entry rest inductionHypothesis =>
      apply Matches.bind (element_matches (agree entry List.mem_cons_self))
      intro first
      apply Matches.bind (inductionHypothesis fun other member => agree other (.tail _ member))
      exact fun _ => matches_pure _

theorem target_matches
    (agree : prepared.operation.target.includes Operation.endpointMark = true → Matches related
      (endpoints.answer prepared.call.method (.url prepared.operation.target prepared.filter))
      (others.answer prepared.call.method (.url prepared.operation.target prepared.filter))) :
    Matches related (target endpoints prepared) (target others prepared) := by
  unfold target
  split
  · rename_i refers
    exact agree refers
  · exact matches_pure _

theorem complete_matches {basis : Basis}
    (agree : ∀ lookup ∈ prepared.lookups, Matches related
      (endpoints.answer prepared.call.method lookup)
      (others.answer prepared.call.method lookup)) :
    Matches related (complete basis endpoints prepared) (complete basis others prepared) := by
  apply Matches.bind
  · exact target_matches fun refers => agree _ (by simp [Prepared.lookups, refers])
  · intro address
    split
    · rename_i hasPayload
      refine Matches.bind (elements_matches fun entry member refers => agree _ ?_)
        fun _ => matches_pure _
      simp only [Prepared.lookups, hasPayload, if_true, List.mem_append, List.mem_map,
        List.mem_filter]
      exact .inr ⟨entry, ⟨member, refers⟩, rfl⟩
    · exact matches_pure _

/-- Builds match where the lookups that they make match. -/
theorem build_matches {basis : Basis} {call : Call}
    (agree : ∀ method, ∀ lookup ∈ lookups basis call, Matches related
      (endpoints.answer method lookup) (others.answer method lookup)) :
    Matches related (build basis endpoints call) (build basis others call) := by
  unfold lookups at agree
  unfold build
  split
  · exact matches_throw _
  · rename_i prepared isPrepared
    rw [isPrepared] at agree
    exact complete_matches (agree _)

/-- Without endpoints, a build ends alike in every state. -/
theorem build_none_outcome (basis : Basis) (call : Call) (before : σ) (other : τ) :
    outcome (build basis (.none σ) call before) = outcome (build basis (.none τ) call other) := by
  have same : Matches (fun _ _ => True) (build basis (.none σ) call)
      (build basis (.none τ) call) := by
    apply build_matches
    intro method lookup _
    cases lookup with
    | url reference filter => exact matches_throw _
    | address reference parameter filter => exact matches_throw _
  exact (same before other trivial).1

end

end Request

/-- An invocation that asks for endpoints says so in its arguments. -/
def Invocation.IsDiscovery (invocation : Invocation) : Prop :=
  (["-M", "epr"] : List Text) <:+: invocation.arguments

theorem ends_anything (action : EStateM ε σ α) (before : σ) :
    Ends action before (fun _ _ => True) (fun _ _ => True) := by
  unfold Ends
  split <;> trivial

namespace Request

theorem assemble_discovers {basis : Basis} {prepared : Prepared} {target : Text}
    {payload : Option Text} (method : prepared.call.method = "GetEPR") :
    (assemble basis prepared target payload).invocation.IsDiscovery := by
  unfold Invocation.IsDiscovery assemble
  simp only [method, if_true]
  exact List.infix_append _ _ _

/-- The operation of the call is known, its parameters are resolved, and there is a host. -/
structure Prepared.IsFor (prepared : Prepared) (basis : Basis) (call : Call) : Prop where
  isCall : prepared.call = call
  operation : basis.catalog.operation? basis.store.deviceText call.method = some prepared.operation
  selectors : resolve basis.files call prepared.operation.selectors = .ok prepared.selectors
  body : resolve basis.files call prepared.operation.body = .ok prepared.body
  host : basis.store.shown? Variable.host = some prepared.host

theorem prepare_isFor (basis : Basis) (call : Call) :
    Gives (prepare basis call) (fun prepared => prepared.IsFor basis call) fun _ => True := by
  unfold prepare
  split
  · trivial
  · rename_i operation isOperation
    split
    · trivial
    · rename_i selectors areSelectors
      split
      · trivial
      · rename_i body isBody
        dsimp only
        split
        · rename_i first rest isHost
          exact ⟨rfl, isOperation, areSelectors, isBody, isHost⟩
        · trivial

/-- What is built is assembled from the prepared call. -/
theorem build_assembles (basis : Basis) (endpoints : Endpoints σ) (call : Call) (before : σ) :
    Ends (build basis endpoints call) before
      (fun request _ => ∃ prepared target payload, prepare basis call = .ok prepared ∧
        request = assemble basis prepared target payload)
      (fun _ _ => True) := by
  unfold build
  split
  · trivial
  · rename_i prepared isPrepared
    rw [complete, ends_bind]
    refine (ends_anything _ _).weaken (fun address after _ => ?_) (fun _ _ _ => trivial)
    split
    · rw [ends_bind]
      exact (ends_anything _ _).weaken (fun _ _ _ => ⟨prepared, _, _, isPrepared, rfl⟩)
        (fun _ _ _ => trivial)
    · exact ⟨prepared, _, _, isPrepared, rfl⟩

/-- Every request for the discovery method is a discovery. -/
theorem build_discovers (basis : Basis) (endpoints : Endpoints σ) {call : Call}
    (method : call.method = "GetEPR") (before : σ) :
    Ends (build basis endpoints call) before (fun request _ => request.invocation.IsDiscovery)
      (fun _ _ => True) := by
  refine (build_assembles basis endpoints call before).weaken (fun request _ assembled => ?_)
    (fun _ _ anything => anything)
  obtain ⟨prepared, target, payload, isPrepared, rfl⟩ := assembled
  apply assemble_discovers
  rw [(gives_of_eq_ok isPrepared (prepare_isFor basis call)).isCall, method]

end Request

/-- The peer answers every discovery with the given function of the invocation. -/
def Peer.Fixed (peer : Peer σ) (answer : Invocation → Except Text Output) : Prop :=
  ∀ invocation : Invocation, invocation.IsDiscovery → ∀ files state,
    (peer.answer invocation files state).1 = answer invocation

namespace Connection

/-- The request with which the endpoints of a class are asked for. -/
def discoveryRequest (basis : Request.Basis) (name : Text) : Except Failure Request :=
  outcome (Request.build basis (.none Unit) ((Call.ofMethod "GetEPR").add "Class" name) ())

theorem discoveryRequest_discovers {basis : Request.Basis} {name : Text} {request : Request}
    (isRequest : discoveryRequest basis name = .ok request) : request.invocation.IsDiscovery := by
  have discovers := Request.build_discovers basis (.none Unit)
    (rfl : ((Call.ofMethod "GetEPR").add "Class" name).method = "GetEPR") ()
  unfold discoveryRequest at isRequest
  unfold Ends at discovers
  split at discovers
  · rename_i built after ran
    rw [ran] at isRequest
    cases isRequest
    exact discovers
  · rename_i cause after ran
    rw [ran] at isRequest
    cases isRequest

/-- What a discovery comes to where discoveries have fixed answers. -/
def discovered (answer : Invocation → Except Text Output) (basis : Request.Basis)
    (method reference : Text) : Except Failure Element :=
  match className? reference with
  | none => .error (.unresolved method (.badReference reference))
  | some name => match discoveryRequest basis name with
    | .error cause => .error cause
    | .ok request => match answer request.invocation with
      | .error reason => .error (.transport reason)
      | .ok output => match (Response.ofOutput output.text).tree with
        | some root => .ok root
        | none => .error (.unresolved method (.noResponse name))

/-- What an endpoint is written as where discoveries have fixed answers. -/
def found (answer : Invocation → Except Text Output) (basis : Request.Basis) (method : Text)
    (lookup : Lookup) : Except Failure Text :=
  match discovered answer basis method lookup.reference with
  | .error cause => .error cause
  | .ok root => match Endpoint.choose root lookup.parameter lookup.filter with
    | .error fault => .error (.unresolved method fault)
    | .ok endpoint => .ok (lookup.written endpoint)

/-- Every endpoint is discovered anew, and none is kept. -/
def direct (peer : Peer σ) (basis : Request.Basis) : Request.Endpoints (Connection σ) where
  url method reference filter := find peer basis method reference "URL" filter Endpoint.url
  address method reference parameter filter :=
    find peer basis method reference parameter filter fun endpoint => endpoint.address parameter

section

variable {peer : Peer σ} {answer : Invocation → Except Text Output} (fixed : peer.Fixed answer)
include fixed

theorem send_outcome {invocation : Invocation} (discovers : invocation.IsDiscovery)
    (connection : Connection σ) :
    outcome (send peer invocation connection) = match answer invocation with
      | .ok output => .ok output
      | .error reason => .error (.transport reason) := by
  rw [← fixed invocation discovers connection.files connection.peer]
  simp only [send, outcome_bind, outcome_get, outcome_set, Except.bind]
  cases (peer.answer invocation connection.files connection.peer).1 <;> rfl

theorem discover_outcome (basis : Request.Basis) (method reference : Text)
    (connection : Connection σ) :
    outcome (discover peer basis method reference connection) =
      discovered answer basis method reference := by
  unfold discover discovered
  cases className? reference with
  | none => rfl
  | some name =>
      dsimp only
      have sameRequest : outcome (Request.build basis (.none _)
          ((Call.ofMethod "GetEPR").add "Class" name) connection) = discoveryRequest basis name :=
        Request.build_none_outcome basis _ connection ()
      rw [outcome_bind, sameRequest]
      cases isRequest : discoveryRequest basis name with
      | error cause => rfl
      | ok request =>
          have discovers := discoveryRequest_discovers isRequest
          simp only [Except.bind, report, outcome_bind, outcome_modify, send_outcome fixed discovers]
          cases answer request.invocation with
          | error reason => rfl
          | ok output =>
              dsimp only
              cases (Response.ofOutput output.text).tree <;> rfl

theorem find_outcome (basis : Request.Basis) (method : Text) (lookup : Lookup)
    (connection : Connection σ) :
    outcome ((direct peer basis).answer method lookup connection) =
      found answer basis method lookup := by
  have agree (parameter : Text) (filter : Endpoint.Filter) (written : Endpoint → Text) :
      outcome (find peer basis method lookup.reference parameter filter written connection) =
        match discovered answer basis method lookup.reference with
        | .error cause => .error cause
        | .ok root => match Endpoint.choose root parameter filter with
          | .error fault => .error (.unresolved method fault)
          | .ok endpoint => .ok (written endpoint) := by
    rw [find, outcome_bind, discover_outcome fixed]
    cases discovered answer basis method lookup.reference with
    | error cause => rfl
    | ok root =>
        dsimp only [Except.bind]
        cases Endpoint.choose root parameter filter <;> rfl
  cases lookup with
  | url reference filter => exact agree _ _ _
  | address reference parameter filter => exact agree _ _ _

end

end Connection

end ManagementShell

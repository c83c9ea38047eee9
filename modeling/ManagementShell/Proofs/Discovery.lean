import ManagementShell.Proofs.Caching

/-
This file follows the resolutions of endpoints through a sequence of builds: what creates an entry
of the cache, and that there are no discoveries for an entry that exists.
-/

namespace ManagementShell

variable {σ : Type}

/-- An invocation names the host that it is for. -/
def Invocation.IsFor (invocation : Invocation) (host : Text) : Prop :=
  (["-h", host] : List Text) <:+: invocation.arguments

/-- The invocations that were sent, in their order. -/
def Event.invocation? : Event → Option Invocation
  | .sent invocation => some invocation
  | _ => none

def Connection.sent (connection : Connection σ) : List Invocation :=
  connection.events.filterMap Event.invocation?

/-- The class of the reference is asked for at the host, and in what the peer answers, an endpoint
is chosen that is written as the value. -/
inductive Discovers (peer : Peer σ) (basis : Request.Basis) (lookup : Lookup)
    (before : Connection σ) : Invocation → Text → Prop
  | intro {name : Text} {request : Request} {output : Output} {root : Element}
      {endpoint : Endpoint}
      (ofClass : Connection.className? lookup.reference = some name)
      (asks : Connection.discoveryRequest basis name = .ok request)
      (toHost : request.invocation.IsFor (lookup.key basis).host)
      (succeeds : (peer.answer request.invocation before.files before.peer).1 = .ok output)
      (isTree : (Response.ofOutput output.text).tree = some root)
      (chosen : Endpoint.choose root lookup.parameter lookup.filter = .ok endpoint) :
      Discovers peer basis lookup before request.invocation (lookup.written endpoint)

namespace Request

/-- Every request is for the active host. -/
theorem build_isFor (basis : Basis) (endpoints : Endpoints σ) (call : Call) (before : σ) :
    Ends (build basis endpoints call) before
      (fun request _ => request.invocation.IsFor ((basis.store.shown? Variable.host).getD []))
      (fun _ _ => True) := by
  refine (build_assembles basis endpoints call before).weaken (fun request _ assembled => ?_)
    (fun _ _ anything => anything)
  obtain ⟨prepared, target, payload, isPrepared, rfl⟩ := assembled
  rw [(gives_of_eq_ok isPrepared (prepare_isFor basis call)).host, Option.getD_some]
  simp only [Invocation.IsFor, assemble, List.append_assoc]
  -- The access to the host comes after the verb, the action, the resource and the body.
  iterate 4 apply List.infix_append_of_infix_right
  exact (List.prefix_append (["-h", prepared.host] : List Text) _).isInfix

end Request

namespace Connection

/-- The request for a discovery is built without touching the connection. -/
theorem discoveryRequest_ends (basis : Request.Basis) (name : Text) (before : Connection σ) :
    Ends (Request.build basis (.none _) ((Call.ofMethod "GetEPR").add "Class" name)) before
      (fun request after => after = before ∧ discoveryRequest basis name = .ok request ∧
        request.invocation.IsFor ((basis.store.shown? Variable.host).getD []))
      (fun _ after => after = before) := by
  have stays : Leads (fun first second : Connection σ => second = first)
      (Request.build basis (.none _) ((Call.ofMethod "GetEPR").add "Class" name)) := by
    have chains : Chains fun first second : Connection σ => second = first :=
      ⟨fun _ => rfl, fun first second => second.trans first⟩
    exact Request.build_leads chains (Request.Endpoints.lead_none chains) _ _
  have same : outcome (Request.build basis (.none _) ((Call.ofMethod "GetEPR").add "Class" name)
      before) = discoveryRequest basis name := Request.build_none_outcome _ _ _ _
  have isFor := Request.build_isFor basis (.none _) ((Call.ofMethod "GetEPR").add "Class" name) before
  specialize stays before
  unfold Ends at *
  cases ran : Request.build basis (.none _) ((Call.ofMethod "GetEPR").add "Class" name) before with
  | ok request after =>
      rw [ran] at stays same isFor
      exact ⟨stays, same.symm, isFor⟩
  | error cause after =>
      rw [ran] at stays
      exact stays

@[simp] theorem sent_record (connection : Connection σ) (noted : Record) :
    sent { connection with events := connection.events ++ [.record noted] } = connection.sent := by
  simp [sent, Event.invocation?]

theorem send_sends (peer : Peer σ) (invocation : Invocation) (before : Connection σ) :
    Ends (send peer invocation) before
      (fun output after => (peer.answer invocation before.files before.peer).1 = .ok output ∧
        after.sent = before.sent ++ [invocation] ∧ after.cache = before.cache)
      (fun _ after => after.sent = before.sent ++ [invocation] ∧ after.cache = before.cache) := by
  simp only [send, ends_bind, ends_get, ends_set]
  split
  · rename_i answered
    exact ⟨answered, by simp [sent, Event.invocation?], rfl⟩
  · exact ⟨by simp [sent, Event.invocation?], rfl⟩

/-- An endpoint is found through one discovery, or the search fails; the cache stays. -/
theorem find_discovers (peer : Peer σ) (basis : Request.Basis) (method : Text) (lookup : Lookup)
    (before : Connection σ) :
    Ends (find peer basis method lookup.reference lookup.parameter lookup.filter lookup.written)
      before
      (fun value after => after.cache = before.cache ∧
        ∃ invocation, Discovers peer basis lookup before invocation value ∧
          after.sent = before.sent ++ [invocation])
      (fun _ after => after.cache = before.cache ∧ before.sent <+: after.sent) := by
  rw [find, ends_bind, discover]
  split
  · exact ⟨rfl, List.prefix_rfl⟩
  · rename_i name ofClass
    rw [ends_bind]
    refine (discoveryRequest_ends basis name before).weaken (fun request middle built => ?_)
      (fun _ _ same => same ▸ ⟨rfl, List.prefix_rfl⟩)
    obtain ⟨rfl, asks, toHost⟩ := built
    simp only [report, ends_bind, ends_modify]
    refine (send_sends peer request.invocation _).weaken (fun output after answered => ?_)
      (fun _ after failed => ?_)
    · obtain ⟨succeeds, sends, same⟩ := answered
      rw [sent_record] at sends
      split
      · rename_i root isTree
        rw [ends_pure]
        split
        · exact ⟨same, _, sends.symm⟩
        · rename_i endpoint chosen
          exact ⟨same, _, .intro ofClass asks toHost succeeds isTree chosen, sends⟩
      · exact ⟨same, _, sends.symm⟩
    · rw [sent_record] at failed
      exact ⟨failed.2, _, failed.1.symm⟩

/-- An endpoint that is not kept is found through one discovery and then kept, or nothing is. -/
theorem answer_discovers (peer : Peer σ) {basis : Request.Basis} {lookup : Lookup}
    {before : Connection σ} (method : Text)
    (uncached : before.cache.lookup (lookup.key basis) = none) :
    Ends ((endpoints peer basis).answer method lookup) before
      (fun value after => after.cache = (lookup.key basis, value) :: before.cache ∧
        ∃ invocation, Discovers peer basis lookup before invocation value ∧
          after.sent = before.sent ++ [invocation])
      (fun _ after => after.cache = before.cache ∧ before.sent <+: after.sent) := by
  unfold Ends
  rw [answer_of_uncached method uncached, direct_answer]
  rw [← Ends, ends_bind]
  refine (find_discovers peer basis method lookup before).weaken (fun value after found => ?_)
    (fun _ _ failed => failed)
  simp only [keep, ends_bind, ends_modify, ends_pure]
  exact ⟨congrArg _ found.1, found.2⟩

end Connection

/-- One lookup of an endpoint, with the connection that it begins with. -/
structure Resolution (σ : Type) where
  basis : Request.Basis
  method : Text
  lookup : Lookup
  before : Connection σ

namespace Resolution

section

variable (peer : Peer σ) (resolution : Resolution σ)

def key : CacheKey := resolution.lookup.key resolution.basis

def result : EStateM.Result Failure (Connection σ) Text :=
  (Connection.endpoints peer resolution.basis).answer resolution.method resolution.lookup
    resolution.before

def after : Connection σ := finalState (resolution.result peer)

/-- The discoveries that are sent meanwhile. -/
def discoveries : List Invocation :=
  (resolution.after peer).sent.drop resolution.before.sent.length

/-- The resolution adds its key, which was not there, to the cache, after one discovery that found
the value. -/
structure Creates (key : CacheKey) (value : Text) : Prop where
  isKey : resolution.key = key
  uncached : resolution.before.cache.lookup key = none
  discovers : ∃ invocation,
    (resolution.after peer).sent = resolution.before.sent ++ [invocation] ∧
    Discovers peer resolution.basis resolution.lookup resolution.before invocation value
  returns : resolution.result peer = .ok value (resolution.after peer)
  keeps : (resolution.after peer).cache = (key, value) :: resolution.before.cache

/-- What a resolution can do. -/
inductive Goes : Prop
  | finds (value : Text) (cached : resolution.before.cache.lookup resolution.key = some value)
      (returns : resolution.result peer = .ok value resolution.before)
  | creates (value : Text) (creates : resolution.Creates peer resolution.key value)
  | fails (cause : Failure) (uncached : resolution.before.cache.lookup resolution.key = none)
      (fails : resolution.result peer = .error cause (resolution.after peer))
      (sends : resolution.before.sent <+: (resolution.after peer).sent)
      (stays : (resolution.after peer).cache = resolution.before.cache)

theorem goes : resolution.Goes peer := by
  cases cached : resolution.before.cache.lookup resolution.key with
  | some value => exact .finds value cached (Connection.answer_of_cached _ cached)
  | none =>
      have answered := Connection.answer_discovers peer resolution.method cached
      cases ran : resolution.result peer with
      | ok value after =>
          obtain ⟨keeps, invocation, discovers, sends⟩ := ends_of_eq_ok ran answered
          obtain rfl : resolution.after peer = after := by rw [Resolution.after, ran, finalState]
          exact .creates value ⟨rfl, cached, ⟨invocation, sends, discovers⟩, ran, keeps⟩
      | error cause after =>
          obtain ⟨stays, sends⟩ := ends_of_eq_error ran answered
          obtain rfl : resolution.after peer = after := by rw [Resolution.after, ran, finalState]
          exact .fails cause cached ran sends stays

theorem after_of_finds {value : Text}
    (returns : resolution.result peer = .ok value resolution.before) :
    resolution.after peer = resolution.before := by
  rw [after, returns, finalState]

theorem after_sent :
    (resolution.after peer).sent = resolution.before.sent ++ resolution.discoveries peer := by
  have goesOn : resolution.before.sent <+: (resolution.after peer).sent := by
    cases resolution.goes peer with
    | finds _ _ returns => exact after_of_finds peer resolution returns ▸ List.prefix_rfl
    | creates _ creates =>
        obtain ⟨invocation, sends, _⟩ := creates.discovers
        exact ⟨_, sends.symm⟩
    | fails _ _ _ sends _ => exact sends
  exact (List.prefix_iff_eq_append.mp goesOn).symm

/-- An entry of the cache is neither altered nor removed. -/
theorem after_lookup {key : CacheKey} {value : Text}
    (kept : resolution.before.cache.lookup key = some value) :
    (resolution.after peer).cache.lookup key = some value := by
  cases resolution.goes peer with
  | finds _ _ returns => rwa [after_of_finds peer resolution returns]
  | creates other creates =>
      rw [creates.keeps, List.lookup_cons]
      split
      · rename_i same
        rw [beq_iff_eq.mp same, creates.uncached] at kept
        cases kept
      · exact kept
  | fails _ _ _ _ stays => rwa [stays]

/-- An entry is in the cache afterwards if it was there, or if the resolution creates it. -/
theorem after_lookup_iff {key : CacheKey} {value : Text} :
    (resolution.after peer).cache.lookup key = some value ↔
      resolution.before.cache.lookup key = some value ∨ resolution.Creates peer key value := by
  constructor
  · intro kept
    cases resolution.goes peer with
    | finds _ _ returns => exact .inl (after_of_finds peer resolution returns ▸ kept)
    | creates other creates =>
        have entry := creates.keeps ▸ kept
        rw [List.lookup_cons] at entry
        split at entry
        · rename_i same
          cases entry
          exact .inr (beq_iff_eq.mp same ▸ creates)
        · exact .inl entry
    | fails _ _ _ _ stays => exact .inl (stays ▸ kept)
  · rintro (kept | creates)
    · exact after_lookup peer resolution kept
    · rw [creates.keeps, List.lookup_cons_self]

end

section

variable {peer : Peer σ}

/-- The cache after resolutions that begin with a cache. -/
def cacheAfter (peer : Peer σ) (cache : Cache) : List (Resolution σ) → Cache
  | [] => cache
  | resolution :: rest => cacheAfter peer (resolution.after peer).cache rest

/-- Each resolution begins with the cache that the one before it has left. -/
def Linked (peer : Peer σ) (cache : Cache) : List (Resolution σ) → Prop
  | [] => True
  | resolution :: rest =>
      resolution.before.cache = cache ∧ Linked peer (resolution.after peer).cache rest

theorem cacheAfter_append (cache : Cache) (early late : List (Resolution σ)) :
    cacheAfter peer cache (early ++ late) = cacheAfter peer (cacheAfter peer cache early) late := by
  induction early generalizing cache with
  | nil => rfl
  | cons resolution rest inductionHypothesis => exact inductionHypothesis _

theorem linked_append {cache : Cache} {early late : List (Resolution σ)} :
    Linked peer cache (early ++ late) ↔
      Linked peer cache early ∧ Linked peer (cacheAfter peer cache early) late := by
  induction early generalizing cache with
  | nil => simp [Linked, cacheAfter]
  | cons resolution rest inductionHypothesis =>
      simp only [List.cons_append, Linked, cacheAfter, inductionHypothesis, and_assoc]

/-- What is in the cache was there from the beginning, or one of the resolutions has created it. -/
theorem Linked.lookup_iff {cache : Cache} {history : List (Resolution σ)}
    (linked : Linked peer cache history) {key : CacheKey} {value : Text} :
    (cacheAfter peer cache history).lookup key = some value ↔
      cache.lookup key = some value ∨
        ∃ creator ∈ history, creator.Creates peer key value := by
  induction history generalizing cache with
  | nil => simp [cacheAfter]
  | cons first rest inductionHypothesis =>
      obtain ⟨rfl, linked⟩ := linked
      rw [cacheAfter, inductionHypothesis linked, after_lookup_iff]
      simp only [List.mem_cons, exists_eq_or_imp, or_assoc]

end

end Resolution

/-- The action without its value. -/
def effect {ε α : Type} (action : EStateM ε σ α) : EStateM ε σ Unit := do
  let _ ← action
  pure ()

theorem effect_bind {ε α β : Type} (action : EStateM ε σ α) (next : α → EStateM ε σ β)
    (rest : EStateM ε σ Unit) (same : ∀ value, effect (next value) = rest) :
    effect (action >>= next) = effect action >>= fun _ => rest := by
  simp only [effect, bind_assoc, pure_bind] at *
  simp only [same]

theorem finalState_effect {ε α : Type} (action : EStateM ε σ α) (before : σ) :
    finalState (effect action before) = finalState (action before) := by
  simp only [effect, bind, EStateM.bind]
  cases action before <;> rfl

namespace Request

/-- The lookups one after the other. -/
def Endpoints.answerAll (endpoints : Endpoints σ) (method : Text) :
    List Lookup → EStateM Failure σ Unit
  | [] => pure ()
  | lookup :: rest => do
      let _ ← endpoints.answer method lookup
      endpoints.answerAll method rest

section

variable (endpoints : Endpoints σ) (prepared : Prepared)

theorem answerAll_append (method : Text) (early late : List Lookup) :
    endpoints.answerAll method (early ++ late) =
      endpoints.answerAll method early >>= fun _ => endpoints.answerAll method late := by
  induction early with
  | nil => simp [Endpoints.answerAll]
  | cons lookup rest inductionHypothesis =>
      simp only [List.cons_append, Endpoints.answerAll, inductionHypothesis, bind_assoc]

theorem target_effect : effect (target endpoints prepared) =
    endpoints.answerAll prepared.call.method
      (if prepared.operation.target.includes Operation.endpointMark then
        [.url prepared.operation.target prepared.filter] else []) := by
  unfold target
  split
  · rfl
  · rfl

theorem element_effect (name value : Text) : effect (element endpoints prepared name value) =
    endpoints.answerAll prepared.call.method
      (if value.includes referenceMark then [.address value name prepared.filter] else []) := by
  unfold element
  split
  · rfl
  · rfl

theorem elements_effect (entries : List (Text × Text)) :
    effect (elements endpoints prepared entries) =
      endpoints.answerAll prepared.call.method
        ((entries.filter fun entry => entry.2.includes referenceMark).map fun entry =>
          .address entry.2 entry.1 prepared.filter) := by
  induction entries with
  | nil => rfl
  | cons entry rest inductionHypothesis =>
      rw [elements, effect_bind _ _ (effect (elements endpoints prepared rest)), element_effect,
        inductionHypothesis, ← answerAll_append]
      · split <;> simp [*]
      · intro first
        simp [effect]

theorem complete_effect (basis : Basis) : effect (complete basis endpoints prepared) =
    endpoints.answerAll prepared.call.method prepared.lookups := by
  rw [complete, effect_bind _ _ (if prepared.operation.hasPayload then
    effect (elements endpoints prepared prepared.entries) else pure ()), target_effect,
    elements_effect, Prepared.lookups, answerAll_append]
  · congr 1
    funext _
    split <;> rfl
  · intro address
    split
    · simp [effect]
    · rfl

/-- A build does to the state what its lookups do. -/
theorem build_effect (basis : Basis) (call : Call) (before : σ) :
    finalState (build basis endpoints call before) =
      finalState (endpoints.answerAll call.method (lookups basis call) before) := by
  unfold build lookups
  cases isPrepared : prepare basis call with
  | error failure => rfl
  | ok prepared =>
      have same := (gives_of_eq_ok isPrepared (prepare_isFor basis call)).isCall
      dsimp only
      rw [← finalState_effect, complete_effect, same]

end

end Request

namespace Connection

/-- The resolutions that the lookups make, up to the first that fails. -/
def resolutions (peer : Peer σ) (basis : Request.Basis) (method : Text) :
    List Lookup → Connection σ → List (Resolution σ)
  | [], _ => []
  | lookup :: rest, before =>
      let resolution : Resolution σ := ⟨basis, method, lookup, before⟩
      resolution :: match resolution.result peer with
        | .ok _ after => resolutions peer basis method rest after
        | .error _ _ => []

/-- The induction is on the lookups. -/
theorem answerAll_resolves (peer : Peer σ) (basis : Request.Basis) (method : Text)
    (lookups : List Lookup) (before : Connection σ) :
    let history := resolutions peer basis method lookups before
    let last := finalState ((endpoints peer basis).answerAll method lookups before)
    Resolution.Linked peer before.cache history ∧
      Resolution.cacheAfter peer before.cache history = last.cache ∧
      last.sent = before.sent ++ history.flatMap (Resolution.discoveries peer) := by
  induction lookups generalizing before with
  | nil => simp [resolutions, Resolution.Linked, Resolution.cacheAfter,
      Request.Endpoints.answerAll, finalState, pure, EStateM.pure]
  | cons lookup rest inductionHypothesis =>
      let resolution : Resolution σ := ⟨basis, method, lookup, before⟩
      have sends := resolution.after_sent peer
      rw [resolutions, Request.Endpoints.answerAll]
      cases ran : resolution.result peer with
      | ok value after =>
          obtain rfl : resolution.after peer = after := by rw [Resolution.after, ran, finalState]
          obtain ⟨linked, kept, sent⟩ := inductionHypothesis (resolution.after peer)
          rw [bind_of_eq_ok ran]
          refine ⟨⟨rfl, linked⟩, kept, ?_⟩
          rw [sent, sends, List.flatMap_cons, List.append_assoc]
      | error cause after =>
          obtain rfl : resolution.after peer = after := by rw [Resolution.after, ran, finalState]
          rw [bind_of_eq_error ran]
          exact ⟨⟨rfl, trivial⟩, rfl, by rw [finalState, sends, List.flatMap_singleton]⟩

end Connection

/-- One build of a sequence, with the peer and the files that it finds; only the cache goes from one
build to the next. -/
structure Build (σ : Type) where
  basis : Request.Basis
  call : Call
  peer : σ
  files : FileTree

namespace Build

variable (peer : Peer σ) (build : Build σ) (connection : Connection σ)

def start : Connection σ := { connection with peer := build.peer, files := build.files }

def after : Connection σ :=
  finalState (Connection.build peer build.basis build.call (build.start connection))

def resolutions : List (Resolution σ) :=
  Connection.resolutions peer build.basis build.call.method
    (Request.lookups build.basis build.call) (build.start connection)

/-- The connection after the builds. -/
def afterAll : List (Build σ) → Connection σ → Connection σ
  | [], connection => connection
  | build :: rest, connection => afterAll rest (build.after peer connection)

/-- The resolutions of the builds. -/
def history : List (Build σ) → Connection σ → List (Resolution σ)
  | [], _ => []
  | build :: rest, connection =>
      build.resolutions peer connection ++ history rest (build.after peer connection)

/-- The induction is on the builds. -/
theorem history_resolves (builds : List (Build σ)) (first : Connection σ) :
    Resolution.Linked peer first.cache (history peer builds first) ∧
      Resolution.cacheAfter peer first.cache (history peer builds first) =
        (afterAll peer builds first).cache ∧
      (afterAll peer builds first).sent =
        first.sent ++ (history peer builds first).flatMap (Resolution.discoveries peer) := by
  induction builds generalizing first with
  | nil => simp [history, Resolution.Linked, Resolution.cacheAfter, afterAll]
  | cons build rest inductionHypothesis =>
      obtain ⟨linkedRest, keptRest, sentRest⟩ := inductionHypothesis (build.after peer first)
      have resolves := Connection.answerAll_resolves peer build.basis build.call.method
        (Request.lookups build.basis build.call) (build.start first)
      rw [← Request.build_effect] at resolves
      obtain ⟨linked, kept, sent⟩ := resolves
      change Resolution.Linked peer first.cache (build.resolutions peer first) at linked
      change Resolution.cacheAfter peer first.cache (build.resolutions peer first) =
        (build.after peer first).cache at kept
      change (build.after peer first).sent =
        first.sent ++ (build.resolutions peer first).flatMap _ at sent
      rw [history, afterAll, Resolution.linked_append, Resolution.cacheAfter_append, kept, sentRest,
        sent, List.flatMap_append, List.append_assoc]
      exact ⟨⟨linked, linkedRest⟩, keptRest, rfl⟩

end Build

/-- What holds of a resolution after earlier ones. -/
structure Resolution.Disciplined (peer : Peer σ) (first : Cache) (earlier : List (Resolution σ))
    (resolution : Resolution σ) : Prop where
  /-- The cache has what was there at first and what earlier resolutions have created. -/
  kept : ∀ key value, resolution.before.cache.lookup key = some value ↔
    first.lookup key = some value ∨ ∃ creator ∈ earlier, creator.Creates peer key value
  /-- For an entry that exists there is no discovery. -/
  found : ∀ value, resolution.before.cache.lookup resolution.key = some value →
    resolution.result peer = .ok value resolution.before ∧ resolution.discoveries peer = []
  /-- A resolution that fails leaves the cache as it was. -/
  failed : ∀ cause after, resolution.result peer = .error cause after →
    after.cache = resolution.before.cache

/-- Through every sequence of builds, an entry is added to the cache only after a discovery for its
host has found it, it stays as it is, and there is no further discovery for it; what fails adds
nothing. Other discoveries than those of the resolutions are not sent. -/
theorem Build.afterAll_disciplined (peer : Peer σ) (builds : List (Build σ))
    (first : Connection σ) :
    (afterAll peer builds first).sent =
        first.sent ++ (history peer builds first).flatMap (Resolution.discoveries peer) ∧
      (∀ key value, (afterAll peer builds first).cache.lookup key = some value ↔
        first.cache.lookup key = some value ∨
          ∃ creator ∈ history peer builds first, creator.Creates peer key value) ∧
      ∀ earlier resolution later,
        history peer builds first = earlier ++ resolution :: later →
          resolution.Disciplined peer first.cache earlier := by
  obtain ⟨linked, kept, sent⟩ := history_resolves peer builds first
  refine ⟨sent, fun key value => kept ▸ linked.lookup_iff, ?_⟩
  intro earlier resolution later isHistory
  rw [isHistory, Resolution.linked_append] at linked
  obtain ⟨linkedEarlier, begins, _⟩ := linked
  refine ⟨fun key value => begins ▸ linkedEarlier.lookup_iff, ?_, ?_⟩
  · intro value cached
    have returns : resolution.result peer = .ok value resolution.before :=
      Connection.answer_of_cached _ cached
    refine ⟨returns, ?_⟩
    rw [Resolution.discoveries, Resolution.after_of_finds peer resolution returns, List.drop_length]
  · intro cause after fails
    cases resolution.goes peer with
    | finds _ _ returns => cases fails.symm.trans returns
    | creates _ creates => cases fails.symm.trans creates.returns
    | fails _ _ failed _ stays =>
        cases fails.symm.trans failed
        exact stays

/-- When an operation is built twice, its endpoints are discovered once. -/
theorem Build.afterAll_disciplined_again :
    let build : Build Unit :=
      ⟨(Connection.twofold "Service").toHost "h", .ofMethod "Enable", (), ⟨[], []⟩⟩
    let resolutions := history Connection.onePeer [build, build] Connection.firstConnection
    resolutions.length = 4 ∧
      (resolutions.flatMap (Resolution.discoveries Connection.onePeer)).length = 2 ∧
      ∀ inRange : 2 < resolutions.length,
        resolutions[2].Disciplined Connection.onePeer [] (resolutions.take 2) := by
  intro build resolutions
  refine ⟨by decide +kernel, by decide +kernel, fun inRange => ?_⟩
  apply (afterAll_disciplined Connection.onePeer [build, build]
    Connection.firstConnection).2.2 _ _ (resolutions.drop 3)
  rw [List.getElem_cons_drop, List.take_append_drop]

end ManagementShell

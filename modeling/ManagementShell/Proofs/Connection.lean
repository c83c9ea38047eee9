import ManagementShell.Proofs.Request
import ManagementShell.Proofs.Response

/-
This file shows that a connection reports no text that shows a secret, and keeps none, while it
discovers the endpoints of a call.
-/

namespace ManagementShell
open Text Masking

variable {c : Char} {secret : Text}

namespace Event

/-- What is seen of the event does not have the character. -/
def Quiet (c : Char) : Event → Prop
  | .record entry => c ∉ entry.message
  | .screen text | .console text | .logged text => c ∉ text
  | _ => True

/-- Where the secret is masked, no text of a call has the character, and no payload has it at all. -/
def Careful (c : Char) (secret : Text) : Event → Prop
  | .called words => ∀ text ∈ Call.texts secret words, c ∉ hideSecret secret text
  | .sent invocation => ∀ payload ∈ invocation.payload, c ∉ payload
  | _ => True

instance (event : Event) : Decidable (event.Quiet c) :=
  match event with
  | .record entry => inferInstanceAs (Decidable (c ∉ entry.message))
  | .screen text | .console text | .logged text => inferInstanceAs (Decidable (c ∉ text))
  | .sent _ | .called _ | .line _ _ | .moved _ _ => inferInstanceAs (Decidable True)

instance (event : Event) : Decidable (event.Careful c secret) :=
  match event with
  | .called words =>
      inferInstanceAs (Decidable (∀ text ∈ Call.texts secret words, c ∉ hideSecret secret text))
  | .sent invocation => inferInstanceAs (Decidable (∀ payload ∈ invocation.payload, c ∉ payload))
  | .record _ | .screen _ | .console _ | .logged _ | .line _ _ | .moved _ _ =>
      inferInstanceAs (Decidable True)

end Event

/-- Neither an answer of the peer nor a file that it leaves has the character, as long as the files
that it finds do not have it. -/
structure Peer.Discreet {σ : Type} (c : Char) (calm : σ → Prop) (peer : Peer σ) : Prop where
  output : ∀ invocation files state, files.Lacks c → calm state →
    Gives (peer.answer invocation files state).1 (fun output => Response.Discreet c output.text)
      fun reason => c ∉ reason
  files : ∀ invocation files state, files.Lacks c → calm state →
    (peer.answer invocation files state).2.1.Lacks c
  state : ∀ invocation files state, files.Lacks c → calm state →
    calm (peer.answer invocation files state).2.2

namespace Connection

variable {σ : Type}

/-- Neither the files nor the endpoints that are kept have the character. -/
structure Guarded (c : Char) (calm : σ → Prop) (connection : Connection σ) : Prop where
  files : connection.files.Lacks c
  cache : ∀ entry ∈ connection.cache, c ∉ entry.2
  peer : calm connection.peer

/-- A failure quotes the password only as a whole. -/
def policy (c : Char) (secret password : Text) (calm : σ → Prop) :
    Policy Failure (Connection σ) where
  events := Connection.events
  careful := Event.Careful c secret
  quiet := Event.Quiet c
  good := Guarded c calm
  tells failure _ := failure.Quotes (Whole c password)

variable {password : Text} {calm : σ → Prop}

theorem report_secures {assumed : Prop} {entry : Record} (lacks : assumed → c ∉ entry.message) :
    (policy c secret password calm).Secures assumed (report (.record entry)) fun _ => True :=
  fun _ => Policy.step_of_event rfl fun good isAssumed _ =>
    ⟨lacks isAssumed, ⟨good.files, good.cache, good.peer⟩, trivial⟩

theorem send_secures {peer : Peer σ} (discreet : peer.Discreet c calm) (invocation : Invocation) :
    (policy c secret password calm).Secures True (send peer invocation) fun output =>
      Response.Discreet c output.text := by
  intro connection
  have answered (good : connection.Guarded c calm) :
      Guarded c calm { connection with
        peer := (peer.answer invocation connection.files connection.peer).2.2
        files := (peer.answer invocation connection.files connection.peer).2.1
        events := connection.events ++ [Event.sent invocation] } :=
    ⟨discreet.files _ _ _ good.files good.peer, good.cache, discreet.state _ _ _ good.files good.peer⟩
  have answer (good : connection.Guarded c calm) :=
    discreet.output invocation _ _ good.files good.peer
  simp only [send, ends_bind, ends_get, ends_set]
  cases isAnswer : (peer.answer invocation connection.files connection.peer).1 with
  | ok output =>
      rw [isAnswer] at answer
      exact Policy.step_of_event rfl fun good _ _ => ⟨trivial, answered good, answer good⟩
  | error reason =>
      rw [isAnswer] at answer
      exact Policy.step_of_event rfl fun good _ _ =>
        ⟨trivial, answered good, whole_of_lacks (answer good)⟩

theorem none_secure :
    (Request.Endpoints.none (Connection σ)).Secure (policy c secret password calm) c password where
  url method reference _ := Policy.secures_throw fun _ _ _ => ⟨method, reference.1⟩
  address method reference _ _ := Policy.secures_throw fun _ _ _ => ⟨method, reference.1⟩

section

variable {basis : Request.Basis} (guarded : basis.Guarded c secret) (fresh : Fresh c)
  (unquoted : c ∈ basis.store.passwordText → '\'' ∉ basis.store.passwordText)
  {peer : Peer σ} (discreet : peer.Discreet c calm)
include guarded fresh unquoted discreet

section

variable {method reference : Text} (isMethod : Whole c basis.store.passwordText method)
  (maskable : Maskable c basis.store.passwordText reference)
include isMethod maskable

theorem discover_secures : (policy c secret basis.store.passwordText calm).Secures True
    (discover peer basis method reference) fun root => root.Lacks c := by
  unfold discover
  split
  · exact Policy.secures_throw fun _ _ _ => ⟨isMethod, maskable.1⟩
  · rename_i name isName
    have isClass : Whole c basis.store.passwordText name := maskable.2 name isName
    have parts : ∀ part ∈ ((Call.ofMethod "GetEPR").add "Class" name).parts,
        Whole c basis.store.passwordText part := by
      rw [Call.discovery_parts isName]
      simp only [List.mem_cons, List.not_mem_nil, or_false, forall_eq_or_imp, forall_eq]
      exact ⟨whole_of_lacks (fresh.literal (by decide)), isClass⟩
    apply Policy.Secures.bind
    · exact Request.build_secures guarded fresh unquoted parts none_secure id
    intro request
    apply Policy.Secures.bind (report_secures fun holds => holds.2.command)
    intro _
    apply Policy.Secures.bind (send_secures discreet _).under
    intro output
    split
    · rename_i root isTree
      exact Policy.secures_pure fun holds => (Response.ofOutput_lacks fresh holds.2).tree root isTree
    · exact Policy.secures_throw fun _ _ _ => ⟨isMethod, isClass⟩

variable {parameter : Text} {filter : Endpoint.Filter} {written : Endpoint → Text}
  (pairs : ∀ pair ∈ filter.pairs, Whole c basis.store.passwordText pair)
  (writes : ∀ endpoint : Endpoint, endpoint.Lacks c → c ∉ written endpoint)
include pairs writes

theorem find_secures : (policy c secret basis.store.passwordText calm).Secures True
    (find peer basis method reference parameter filter written) fun value => c ∉ value := by
  apply Policy.Secures.bind (discover_secures guarded fresh unquoted discreet isMethod maskable)
  intro root
  have chosen (lacks : root.Lacks c) : Gives (Endpoint.choose root parameter filter)
      (fun endpoint => endpoint.Lacks c)
      fun fault => fault.Quotes (Whole c basis.store.passwordText) :=
    Endpoint.choose_gives lacks pairs .nil
  split
  · rename_i fault isFault
    rw [isFault] at chosen
    exact Policy.secures_throw fun _ _ holds => ⟨isMethod, chosen holds.2⟩
  · rename_i endpoint isEndpoint
    rw [isEndpoint] at chosen
    exact Policy.secures_pure fun holds => writes endpoint (chosen holds.2)

theorem lookup_secures : (policy c secret basis.store.passwordText calm).Secures True
    (lookup peer basis method reference parameter filter written) fun value => c ∉ value := by
  apply Policy.Secures.bind Policy.secures_get
  intro connection
  split
  · rename_i value isKept
    refine Policy.secures_pure fun holds => ?_
    obtain ⟨before, after, isCache, _⟩ := List.lookup_eq_some_iff.mp isKept
    have lacks := holds.2.cache
    rw [isCache] at lacks
    exact lacks _ (List.mem_append_right _ List.mem_cons_self)
  · apply Policy.Secures.bind (find_secures guarded fresh unquoted discreet isMethod maskable
      pairs writes).under
    intro value
    apply Policy.Secures.bind
    · refine Policy.secures_modify (fun _ => rfl) fun kept good holds => ⟨?_, trivial⟩
      exact ⟨good.files, List.forall_mem_cons.mpr ⟨holds.2, good.cache⟩, good.peer⟩
    · exact fun _ => Policy.secures_pure fun holds => holds.1.2

end

/-- A connection may show the request that a call comes to, and the failure to build it. -/
theorem build_secures {call : Call} (whole : ∀ part ∈ call.parts, Whole c basis.store.passwordText part) :
    (policy c secret basis.store.passwordText calm).Secures True (build peer basis call)
      (Request.Shows c) := by
  have secure : (endpoints peer basis).Secure (policy c secret basis.store.passwordText calm) c
      basis.store.passwordText :=
    { url := fun isMethod maskable pairs =>
        lookup_secures guarded fresh unquoted discreet isMethod maskable pairs
          fun _ lacks => Endpoint.url_lacks lacks fresh
      address := fun isMethod maskable lacksParameter pairs =>
        (lookup_secures guarded fresh unquoted discreet isMethod maskable pairs
          fun _ lacks => Endpoint.address_lacks lacks fresh lacksParameter).weaken id
          fun _ _ _ => trivial }
  exact Request.build_secures guarded fresh unquoted whole secure id

end

end Connection

end ManagementShell

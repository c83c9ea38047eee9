import ManagementShell.Connection
import ManagementShell.Proofs.Request

/-
This file shows for which causes a request cannot be built or sent.
-/

namespace ManagementShell

variable {ε σ α β : Type}

/-- Whenever the action halts, its cause has the property. -/
def HaltsFor (property : ε → Prop) (action : EStateM ε σ α) : Prop :=
  ∀ before, Ends action before (fun _ _ => True) fun cause _ => property cause

section

variable {property : ε → Prop}

theorem haltsFor_pure (value : α) : HaltsFor property (pure value : EStateM ε σ α) :=
  fun _ => trivial

theorem haltsFor_get : HaltsFor property (get : EStateM ε σ σ) := fun _ => trivial

theorem haltsFor_set (state : σ) : HaltsFor property (set state : EStateM ε σ PUnit) :=
  fun _ => trivial

theorem haltsFor_modify (change : σ → σ) :
    HaltsFor property (modify change : EStateM ε σ PUnit) := fun _ => trivial

theorem haltsFor_throw {cause : ε} (isCause : property cause) :
    HaltsFor property (throw cause : EStateM ε σ α) := fun _ => isCause

theorem HaltsFor.bind {action : EStateM ε σ β} {next : β → EStateM ε σ α}
    (first : HaltsFor property action) (second : ∀ value, HaltsFor property (next value)) :
    HaltsFor property (action >>= next) := by
  intro before
  rw [ends_bind]
  exact (first before).weaken (fun value after _ => second value after) fun _ _ isCause => isCause

end

/-- The failure is one of those for which a call cannot be read, built or sent. -/
def Failure.isOfCall : Failure → Bool
  | .unknownMethod _ | .missingParameter _ _ | .unreadableReference _ _ | .unresolved _ _
  | .transport _ | .script .missingMethod | .script .missingHost => true
  | _ => false

/-- Whenever the action halts, its failure is one of a call. -/
def HaltsOfCall (action : EStateM Failure σ α) : Prop :=
  HaltsFor (fun cause => cause.isOfCall = true) action

namespace Request

theorem contents_gives_isOfCall (files : FileTree) (parameter value : Text) :
    Gives (contents files parameter value) (fun _ => True) fun cause => cause.isOfCall = true := by
  unfold contents
  split
  · trivial
  · split
    · trivial
    · rfl

theorem values?_gives_isOfCall (call : Call) (name : Text) (parameter : Parameter) :
    Gives (values? call name parameter) (fun _ => True) fun cause => cause.isOfCall = true := by
  unfold values?
  split
  · trivial
  · rfl
  · split <;> trivial

/-- The induction is on the declared parameters. -/
theorem resolve_gives_isOfCall (files : FileTree) (call : Call) (declared : Table Parameter) :
    Gives (resolve files call declared) (fun _ => True) fun cause => cause.isOfCall = true := by
  induction declared with
  | nil => trivial
  | cons entry rest inductionHypothesis =>
      obtain ⟨name, parameter⟩ := entry
      have first := values?_gives_isOfCall call name parameter
      unfold resolve
      split
      · rename_i failed
        rw [failed] at first
        exact first
      · exact inductionHypothesis
      · rename_i values _
        have converted := gives_mapM fun value (_ : value ∈ values) =>
          contents_gives_isOfCall files name value
        split
        · rename_i failed
          rw [failed] at converted
          exact converted
        · split
          · rename_i failed
            rw [failed] at inductionHypothesis
            exact inductionHypothesis
          · trivial

theorem prepare_gives_isOfCall (basis : Basis) (call : Call) :
    Gives (prepare basis call) (fun _ => True) fun cause => cause.isOfCall = true := by
  unfold prepare
  split
  · rfl
  · rename_i operation _
    have selectors := resolve_gives_isOfCall basis.files call operation.selectors
    have body := resolve_gives_isOfCall basis.files call operation.body
    split
    · rename_i failed
      rw [failed] at selectors
      exact selectors
    · split
      · rename_i failed
        rw [failed] at body
        exact body
      · dsimp only
        split
        · trivial
        · rfl

/-- Each way to find an endpoint halts for failures of calls only. -/
structure Endpoints.HaltOfCall (endpoints : Endpoints σ) : Prop where
  url : ∀ method reference filter, HaltsOfCall (endpoints.url method reference filter)
  address : ∀ method reference parameter filter,
    HaltsOfCall (endpoints.address method reference parameter filter)

theorem Endpoints.haltOfCall_none : (Endpoints.none σ).HaltOfCall where
  url _ _ _ := haltsFor_throw rfl
  address _ _ _ _ := haltsFor_throw rfl

section

variable {endpoints : Endpoints σ} (halt : endpoints.HaltOfCall)
include halt

theorem element_haltsOfCall (prepared : Prepared) (name value : Text) :
    HaltsOfCall (element endpoints prepared name value) := by
  unfold element
  split
  · exact halt.address _ _ _ _
  · exact haltsFor_pure _

theorem elements_haltsOfCall (prepared : Prepared) (entries : List (Text × Text)) :
    HaltsOfCall (elements endpoints prepared entries) := by
  induction entries with
  | nil => exact haltsFor_pure _
  | cons entry rest inductionHypothesis =>
      apply HaltsFor.bind (element_haltsOfCall halt _ _ _)
      intro first
      exact HaltsFor.bind inductionHypothesis fun _ => haltsFor_pure _

theorem target_haltsOfCall (prepared : Prepared) : HaltsOfCall (target endpoints prepared) := by
  unfold target
  split
  · exact halt.url _ _ _
  · exact haltsFor_pure _

theorem complete_haltsOfCall (basis : Basis) (prepared : Prepared) :
    HaltsOfCall (complete basis endpoints prepared) := by
  apply HaltsFor.bind (target_haltsOfCall halt _)
  intro address
  split
  · exact HaltsFor.bind (elements_haltsOfCall halt _ _) fun _ => haltsFor_pure _
  · exact haltsFor_pure _

theorem build_haltsOfCall (basis : Basis) (call : Call) :
    HaltsOfCall (build basis endpoints call) := by
  have gives := prepare_gives_isOfCall basis call
  unfold build
  split
  · rename_i isFailure
    rw [isFailure] at gives
    exact haltsFor_throw gives
  · exact complete_haltsOfCall halt basis _

end

end Request

namespace Connection

theorem send_haltsOfCall (peer : Peer σ) (invocation : Invocation) :
    HaltsOfCall (send peer invocation) := by
  apply HaltsFor.bind haltsFor_get
  intro connection
  apply HaltsFor.bind (haltsFor_set _)
  intro _
  split
  · exact haltsFor_pure _
  · exact haltsFor_throw rfl

theorem discover_haltsOfCall (peer : Peer σ) (basis : Request.Basis) (method reference : Text) :
    HaltsOfCall (discover peer basis method reference) := by
  unfold discover
  split
  · exact haltsFor_throw rfl
  · apply HaltsFor.bind (Request.build_haltsOfCall Request.Endpoints.haltOfCall_none _ _)
    intro request
    apply HaltsFor.bind (haltsFor_modify _)
    intro _
    apply HaltsFor.bind (send_haltsOfCall _ _)
    intro output
    split
    · exact haltsFor_pure _
    · exact haltsFor_throw rfl

theorem lookup_haltsOfCall (peer : Peer σ) (basis : Request.Basis)
    (method reference parameter : Text) (filter : Endpoint.Filter) (written : Endpoint → Text) :
    HaltsOfCall (lookup peer basis method reference parameter filter written) := by
  apply HaltsFor.bind haltsFor_get
  intro connection
  split
  · exact haltsFor_pure _
  · apply HaltsFor.bind
    · apply HaltsFor.bind (discover_haltsOfCall _ _ _ _)
      intro root
      split
      · exact haltsFor_throw rfl
      · exact haltsFor_pure _
    · intro value
      exact HaltsFor.bind (haltsFor_modify _) fun _ => haltsFor_pure _

/-- A request is not built for no other causes than those of a call. -/
theorem build_haltsOfCall (peer : Peer σ) (basis : Request.Basis) (call : Call) :
    HaltsOfCall (build peer basis call) :=
  Request.build_haltsOfCall ⟨fun _ _ _ => lookup_haltsOfCall _ _ _ _ _ _ _,
    fun _ _ _ _ => lookup_haltsOfCall _ _ _ _ _ _ _⟩ basis call

end Connection

end ManagementShell

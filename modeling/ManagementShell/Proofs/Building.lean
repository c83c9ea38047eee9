import ManagementShell.Connection
import ManagementShell.Proofs.Outcome

/-
This file shows that a request is built out of nothing but lookups of endpoints: what each lookup
does to a state, the building does too.
-/

namespace ManagementShell

variable {σ : Type}

namespace Request

/-- Each way to find an endpoint leads to related states. -/
structure Endpoints.Lead (relation : σ → σ → Prop) (endpoints : Endpoints σ) : Prop where
  url : ∀ method reference filter, Leads relation (endpoints.url method reference filter)
  address : ∀ method reference parameter filter,
    Leads relation (endpoints.address method reference parameter filter)

variable {relation : σ → σ → Prop}

theorem Endpoints.lead_none (chains : Chains relation) : (Endpoints.none σ).Lead relation where
  url _ _ _ := leads_throw chains _
  address _ _ _ _ := leads_throw chains _

section

variable {endpoints : Endpoints σ} (chains : Chains relation) (leads : endpoints.Lead relation)
include chains leads

theorem element_leads (prepared : Prepared) (name value : Text) :
    Leads relation (element endpoints prepared name value) := by
  unfold element
  split
  · exact leads.address _ _ _ _
  · exact leads_pure chains _

theorem elements_leads (prepared : Prepared) (entries : List (Text × Text)) :
    Leads relation (elements endpoints prepared entries) := by
  induction entries with
  | nil => exact leads_pure chains _
  | cons entry rest inductionHypothesis =>
      apply Leads.bind chains (element_leads chains leads _ _ _)
      intro first
      exact Leads.bind chains inductionHypothesis fun _ => leads_pure chains _

theorem target_leads (prepared : Prepared) : Leads relation (target endpoints prepared) := by
  unfold target
  split
  · exact leads.url _ _ _
  · exact leads_pure chains _

theorem complete_leads (basis : Basis) (prepared : Prepared) :
    Leads relation (complete basis endpoints prepared) := by
  apply Leads.bind chains (target_leads chains leads _)
  intro address
  split
  · exact Leads.bind chains (elements_leads chains leads _ _) fun _ => leads_pure chains _
  · exact leads_pure chains _

/-- Building a request does to the state what the lookups of endpoints do. -/
theorem build_leads (basis : Basis) (call : Call) :
    Leads relation (build basis endpoints call) := by
  unfold build
  split
  · exact leads_throw chains _
  · exact complete_leads chains leads basis _

end

end Request

namespace Connection

section

variable {relation : Connection σ → Connection σ → Prop} (chains : Chains relation)
  (peer : Peer σ) (basis : Request.Basis)
  (reports : ∀ record, Leads relation (report (.record record)))
  (sends : ∀ invocation, Leads relation (send peer invocation))
include chains reports sends

/-- A discovery reports its request and sends it, and does nothing else. -/
theorem discover_leads (method reference : Text) :
    Leads relation (discover peer basis method reference) := by
  unfold discover
  split
  · exact leads_throw chains _
  · apply Leads.bind chains
    · exact Request.build_leads chains (Request.Endpoints.lead_none chains) _ _
    · intro request
      apply Leads.bind chains (reports _)
      intro _
      apply Leads.bind chains (sends _)
      intro output
      split
      · exact leads_pure chains _
      · exact leads_throw chains _

theorem find_leads (method reference parameter : Text) (filter : Endpoint.Filter)
    (written : Endpoint → Text) :
    Leads relation (find peer basis method reference parameter filter written) := by
  apply Leads.bind chains (discover_leads chains peer basis reports sends _ _)
  intro root
  split
  · exact leads_throw chains _
  · exact leads_pure chains _

variable (keeps : ∀ key value, Leads relation (keep key value))
include keeps

/-- A lookup reads the cache, or it finds an endpoint and adds it to the cache. -/
theorem lookup_leads (method reference parameter : Text) (filter : Endpoint.Filter)
    (written : Endpoint → Text) :
    Leads relation (lookup peer basis method reference parameter filter written) := by
  apply Leads.bind chains (leads_get chains)
  intro connection
  split
  · exact leads_pure chains _
  · apply Leads.bind chains (find_leads chains peer basis reports sends _ _ _ _ _)
    intro value
    exact Leads.bind chains (keeps _ _) fun _ => leads_pure chains _

theorem build_leads (call : Call) : Leads relation (build peer basis call) :=
  Request.build_leads chains
    ⟨fun _ _ _ => lookup_leads chains peer basis reports sends keeps _ _ _ _ _,
      fun _ _ _ _ => lookup_leads chains peer basis reports sends keeps _ _ _ _ _⟩ basis call

end

end Connection

end ManagementShell

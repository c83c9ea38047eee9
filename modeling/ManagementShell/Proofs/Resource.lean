import ManagementShell.Proofs.Text.Cut
import ManagementShell.Proofs.Text.Replace
import ManagementShell.Request

/-
This file shows under which address an endpoint that was discovered is sent as a target. The plus
signs that separate its selectors become commas, and so do those inside the selectors.
-/

namespace ManagementShell
open Text

namespace Endpoint

/-- The resource with the selectors, as they are, as a query whose parts are separated by commas. -/
def query (endpoint : Endpoint) : Text :=
  if endpoint.selectors = [] then endpoint.resource
  else endpoint.resource ++ "?" ++
    join "," (endpoint.selectors.map fun selector => selector.1 ++ "=" ++ selector.2)

/-- The endpoint with commas for the plus signs of its selectors. -/
def unsigned (endpoint : Endpoint) : Endpoint where
  resource := endpoint.resource
  selectors := endpoint.selectors.map fun selector =>
    (selector.1.replaceAll ['+'] ",", selector.2.replaceAll ['+'] ",")

variable {endpoint : Endpoint}

theorem resource_prefix_url (endpoint : Endpoint) : endpoint.resource <+: endpoint.url := by
  unfold url
  split
  · exact List.prefix_rfl
  · rw [List.append_assoc]
    exact List.prefix_append _ _

theorem subset_query {selector : Text × Text} (isSelector : selector ∈ endpoint.selectors) :
    selector.1 ++ "=" ++ selector.2 ⊆ endpoint.query := fun character member => by
  rw [query, if_neg (List.ne_nil_of_mem isSelector)]
  exact List.mem_append_right _ (subset_join (List.mem_map_of_mem isSelector) member)

/-- In a selector, the name and the value are replaced apart. -/
theorem replaceAll_url (noSign : '+' ∉ endpoint.resource) :
    endpoint.url.replaceAll ['+'] "," = endpoint.unsigned.query := by
  have kept : endpoint.resource.replaceAll ['+'] "," = endpoint.resource :=
    replaceAll_of_lacks noSign _
  by_cases none : endpoint.selectors = []
  · simp only [url, query, unsigned, none, if_true, List.map_nil, kept]
  · have mark : replaceAll ("?" : Text) ['+'] "," = "?" := by decide
    have sign : replaceAll ("=" : Text) ['+'] "," = "=" := by decide
    have separator : replaceAll ("+" : Text) ['+'] "," = "," := by decide
    rw [url, if_neg none, query, if_neg (by simpa [unsigned] using none)]
    simp only [replaceAll_parts, replaceAll_join, kept, mark, separator, unsigned, List.map_map]
    congr 2
    refine List.map_congr_left fun selector _ => ?_
    simp only [Function.comp_apply, replaceAll_parts, sign]

theorem unsigned_of_lacks
    (lacks : ∀ selector ∈ endpoint.selectors, '+' ∉ selector.1 ∧ '+' ∉ selector.2) :
    endpoint.unsigned = endpoint := by
  have same : endpoint.unsigned.selectors = endpoint.selectors := by
    refine (List.map_congr_left fun selector isSelector => ?_).trans (List.map_id _)
    obtain ⟨noSign, noSignToo⟩ := lacks selector isSelector
    rw [replaceAll_of_lacks noSign, replaceAll_of_lacks noSignToo]
    rfl
  obtain ⟨resource, selectors⟩ := endpoint
  exact congrArg (Endpoint.mk resource) same

end Endpoint

namespace Request

/-- The target that is sent for an endpoint is its resource with the selectors as a query in which
each plus sign is a comma. This is the query of the endpoint that was discovered exactly if there is
no plus sign in its selectors. -/
theorem resource_url {endpoint : Endpoint} (isAddress : ("http" : Text) <+: endpoint.resource)
    (noSign : '+' ∉ endpoint.resource) :
    resource endpoint.url = endpoint.unsigned.query ∧
      (resource endpoint.url = endpoint.query ↔
        ∀ selector ∈ endpoint.selectors, '+' ∉ selector.1 ∧ '+' ∉ selector.2) := by
  have isAddressToo : (endpoint.url.after? "http").isSome = true := by
    obtain ⟨rest, isUrl⟩ := isAddress.trans endpoint.resource_prefix_url
    exact Option.isSome_iff_exists.mpr ⟨rest, after?_eq_some.mpr isUrl⟩
  have replaced : resource endpoint.url = endpoint.unsigned.query := by
    rw [← Endpoint.replaceAll_url noSign, resource, if_pos isAddressToo]
    rfl
  refine ⟨replaced, fun same selector isSelector => ?_, fun lacks => ?_⟩
  · have noneLeft : '+' ∉ endpoint.query := by
      rw [← same, replaced, ← Endpoint.replaceAll_url noSign]
      exact replaceAll_clears (by decide) _
    have absent : '+' ∉ selector.1 ++ "=" ++ selector.2 := fun member =>
      noneLeft (Endpoint.subset_query isSelector member)
    simp only [List.mem_append, not_or] at absent
    exact ⟨absent.1.1, absent.2⟩
  · rw [replaced, Endpoint.unsigned_of_lacks lacks]

def serviceNamed (name : Text) : Endpoint :=
  ⟨"http://h/Service", [("Class", "Service"), ("Name", name)]⟩

theorem resource_url_service :
    resource (serviceNamed "a=b,c?").url = "http://h/Service?Class=Service,Name=a=b,c?" := by
  have isAddress : ("http" : Text) <+: (serviceNamed "a=b,c?").resource := ⟨"://h/Service", by decide⟩
  rw [(resource_url isAddress (by decide)).2.mpr (by decide)]
  decide

/-- A plus sign in the value of a selector is sent as a comma, which separates selectors. -/
theorem resource_url_signed : ("http" : Text) <+: (serviceNamed "a+b").resource ∧
    '+' ∉ (serviceNamed "a+b").resource ∧
    (serviceNamed "a+b").query = "http://h/Service?Class=Service,Name=a+b" ∧
    resource (serviceNamed "a+b").url = "http://h/Service?Class=Service,Name=a,b" := by
  decide

end Request

end ManagementShell

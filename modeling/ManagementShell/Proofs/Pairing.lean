import ManagementShell.Proofs.Endpoint
import Mathlib.Data.List.Basic

/-
This file shows in which answers the resource and the selectors that are chosen belong to the same
reference to an endpoint.
-/

namespace ManagementShell.Endpoint

def referenceName : Text := "ReferenceParameters"

/-- The parts that make a reference: its selectors and its resource. -/
def partNames : List Text := ["SelectorSet", "ResourceURI"]

def references (root : Element) : List Element := named root referenceName

/-- The children with a name. -/
def parts (base : Text) (element : Element) : List Element :=
  element.children.filter fun child => child.tag.base == base

/-- The parts of references occur as children of references only, every reference has one of each,
and there are no references inside references. -/
structure Regular (root : Element) : Prop where
  outermost : root.tag.base ∉ partNames
  inside : ∀ element ∈ root.inOrder, element.tag.base ≠ referenceName →
    ∀ child ∈ element.children, child.tag.base ∉ partNames
  complete : ∀ reference ∈ references root, ∀ name ∈ partNames,
    (parts name reference).length = 1
  flat : ∀ reference ∈ references root, ∀ inner ∈ Element.inOrderAll reference.children,
    inner.tag.base ≠ referenceName

/-- Outside of references no element has children with the name. -/
def OnlyInReferences (name : Text) (elements : List Element) : Prop :=
  ∀ element ∈ elements, element.tag.base ≠ referenceName →
    ∀ child ∈ element.children, child.tag.base ≠ name

def isNamed (name : Text) (element : Element) : Bool := element.tag.base == name

section

variable {name : Text}

theorem filter_eq_nil_of_ne {elements : List Element}
    (others : ∀ element ∈ elements, element.tag.base ≠ name) :
    elements.filter (isNamed name) = [] := by
  simpa [isNamed] using others

mutual

/-- Without references inside, an element with the name can only be the outermost one. -/
theorem filter_inOrder_of_flat (element : Element)
    (flat : ∀ inner ∈ element.inOrder, inner.tag.base ≠ referenceName)
    (inside : OnlyInReferences name element.inOrder) :
    element.inOrder.filter (isNamed name) = [element].filter (isNamed name) := by
  obtain ⟨tag, text, children⟩ := element
  simp only [Element.inOrder, OnlyInReferences, List.mem_cons, forall_eq_or_imp] at *
  have none : (Element.inOrderAll children).filter (isNamed name) = [] := by
    rw [filter_inOrderAll_of_flat children flat.2 inside.2]
    exact filter_eq_nil_of_ne (inside.1 flat.1)
  rw [List.filter_cons, none, List.filter_cons, List.filter_nil]

theorem filter_inOrderAll_of_flat (elements : List Element)
    (flat : ∀ inner ∈ Element.inOrderAll elements, inner.tag.base ≠ referenceName)
    (inside : OnlyInReferences name (Element.inOrderAll elements)) :
    (Element.inOrderAll elements).filter (isNamed name) = elements.filter (isNamed name) := by
  cases elements with
  | nil => rfl
  | cons first rest =>
      simp only [Element.inOrderAll, List.mem_append, or_imp, forall_and, OnlyInReferences,
        List.filter_append] at *
      rw [filter_inOrder_of_flat first flat.1 inside.1,
        filter_inOrderAll_of_flat rest flat.2 inside.2, ← List.filter_append,
        List.singleton_append]

end

/-- There are no references inside references. -/
def Flat (elements : List Element) : Prop :=
  ∀ reference ∈ elements, reference.tag.base = referenceName →
    ∀ inner ∈ Element.inOrderAll reference.children, inner.tag.base ≠ referenceName

mutual

/-- The elements with the name are the parts of the references, in the order of the references. -/
theorem filter_inOrder (element : Element) (outermost : element.tag.base ≠ name)
    (inside : OnlyInReferences name element.inOrder) (flat : Flat element.inOrder) :
    element.inOrder.filter (isNamed name) =
      (element.inOrder.filter (isNamed referenceName)).flatMap (parts name) := by
  obtain ⟨tag, text, children⟩ := element
  simp only [Element.inOrder, OnlyInReferences, Flat, List.forall_mem_cons] at *
  rw [List.filter_cons_of_neg (by simpa [isNamed] using outermost)]
  by_cases isReference : (Element.mk tag text children).tag.base = referenceName
  · have inner : ∀ inner ∈ Element.inOrderAll children, inner.tag.base ≠ referenceName :=
      flat.1 isReference
    rw [List.filter_cons_of_pos (by simpa [isNamed] using isReference), filter_eq_nil_of_ne inner,
      List.flatMap_singleton, filter_inOrderAll_of_flat children inner inside.2]
    rfl
  · rw [List.filter_cons_of_neg (by simpa [isNamed] using isReference)]
    exact filter_inOrderAll children (inside.1 isReference) inside.2 flat.2

theorem filter_inOrderAll (elements : List Element)
    (outermost : ∀ element ∈ elements, element.tag.base ≠ name)
    (inside : OnlyInReferences name (Element.inOrderAll elements))
    (flat : Flat (Element.inOrderAll elements)) :
    (Element.inOrderAll elements).filter (isNamed name) =
      ((Element.inOrderAll elements).filter (isNamed referenceName)).flatMap (parts name) := by
  cases elements with
  | nil => rfl
  | cons first rest =>
      rw [List.forall_mem_cons] at outermost
      simp only [Element.inOrderAll, List.mem_append, or_imp, forall_and, OnlyInReferences, Flat,
        List.filter_append, List.flatMap_append] at *
      rw [filter_inOrder first outermost.1 inside.1 flat.1,
        filter_inOrderAll rest outermost.2 inside.2 flat.2]

end

end

theorem Regular.named {root : Element} (regular : Regular root) {name : Text}
    (isPart : name ∈ partNames) : named root name = (references root).flatMap (parts name) := by
  have apart {element : Element} (other : element.tag.base ∉ partNames) : element.tag.base ≠ name :=
    fun same => other (same ▸ isPart)
  refine filter_inOrder root (apart regular.outermost) ?_ ?_
  · intro element member outside child isChild
    exact apart (regular.inside element member outside child isChild)
  · intro reference member isReference
    exact regular.flat reference (List.mem_filter.mpr ⟨member, beq_iff_eq.mpr isReference⟩)

/-- If each member of a list gives one value, the values are at the places of the members. -/
theorem getElem?_flatMap_of_single {α β : Type} {list : List α} {give : α → List β}
    (single : ∀ member ∈ list, ∃ value, give member = [value]) (index : Nat) :
    (list.flatMap give)[index]? = list[index]?.bind fun member => (give member).head? := by
  induction list generalizing index with
  | nil => simp
  | cons first rest inductionHypothesis =>
      simp only [List.mem_cons, forall_eq_or_imp] at single
      obtain ⟨⟨value, isValue⟩, singles⟩ := single
      rw [List.flatMap_cons, isValue, List.singleton_append]
      cases index with
      | zero => simp [isValue]
      | succ index => simpa using inductionHypothesis singles index

/-- The part at a position belongs to the reference at this position. -/
theorem Regular.part {root : Element} (regular : Regular root) {name : Text}
    (isPart : name ∈ partNames) {position : Nat} {part : Element}
    (isAt : (Endpoint.named root name)[position]? = some part) :
    ∃ reference, (references root)[position]? = some reference ∧ parts name reference = [part] := by
  have single (reference : Element) (member : reference ∈ references root) :
      ∃ part, parts name reference = [part] :=
    List.length_eq_one_iff.mp (regular.complete reference member name isPart)
  rw [regular.named isPart, getElem?_flatMap_of_single single, Option.bind_eq_some_iff] at isAt
  obtain ⟨reference, isReference, isFirst⟩ := isAt
  obtain ⟨only, single⟩ := single reference (List.mem_of_getElem? isReference)
  rw [single, List.head?_cons, Option.some_inj] at isFirst
  exact ⟨reference, isReference, isFirst ▸ single⟩

/-- The endpoint that is chosen from a regular answer has the resource and the selectors of one
reference. -/
theorem choose_of_regular {root : Element} {parameter : Text} {filter : Filter}
    {endpoint : Endpoint} (regular : Regular root)
    (chosen : choose root parameter filter = .ok endpoint) :
    ∃ reference ∈ references root, ∃ resource selectors,
      parts "ResourceURI" reference = [resource] ∧ parts "SelectorSet" reference = [selectors] ∧
      endpoint.resource = resource.text?.getD [] ∧
      endpoint.selectors = selectors.children.filterMap selector? := by
  unfold choose at chosen
  dsimp only at chosen
  split at chosen
  · cases chosen
  · rename_i position isPosition
    split at chosen
    · cases chosen
    · rename_i resource isResource
      cases chosen
      have inRange := position?_lt isPosition
      rw [resources, List.getElem?_map, Option.map_eq_some_iff] at isResource
      obtain ⟨holder, isHolder, isText⟩ := isResource
      rw [selectorSets, List.length_map] at inRange
      obtain ⟨reference, isReference, one⟩ := regular.part (by decide) isHolder
      obtain ⟨same, isSame, other⟩ := regular.part (by decide) (List.getElem?_eq_getElem inRange)
      cases isReference.symm.trans isSame
      refine ⟨reference, List.mem_of_getElem? isReference, holder, _, one, other, isText.symm, ?_⟩
      dsimp only
      rw [List.getD_eq_getElem?_getD, selectorSets, List.getElem?_map,
        List.getElem?_eq_getElem inRange, Option.map_some, Option.getD_some]

def referenceTo (resource name : Text) : Element :=
  .mk ⟨referenceName, referenceName, []⟩ [] [
    .mk ⟨"ResourceURI", "ResourceURI", []⟩ resource [],
    .mk ⟨"SelectorSet", "SelectorSet", []⟩ [] [
      .mk ⟨"Selector", "Selector", [("Name", "Name")]⟩ name []]]

/-- An answer with two references. -/
def twoReferences : Element :=
  .mk ⟨"Items", "Items", []⟩ []
    [referenceTo "http://first" "One", referenceTo "http://second" "Two"]

/-- The second reference is chosen by its name, with its resource. -/
theorem choose_of_regular_second :
    let endpoint : Endpoint := ⟨"http://second", [("Name", "Two")]⟩
    choose twoReferences "Service" (.parse "Name=Two") = .ok endpoint ∧
      ∃ reference ∈ references twoReferences, ∃ resource selectors,
        parts "ResourceURI" reference = [resource] ∧ parts "SelectorSet" reference = [selectors] ∧
        endpoint.resource = resource.text?.getD [] ∧
        endpoint.selectors = selectors.children.filterMap selector? := by
  intro endpoint
  have chosen : choose twoReferences "Service" (.parse "Name=Two") = .ok endpoint := by
    decide
  have regular : Regular twoReferences :=
    ⟨by decide, by decide, by decide, by decide⟩
  exact ⟨chosen, choose_of_regular regular chosen⟩

/-- An answer with a resource in its header, before the only reference. -/
def withHeader : Element :=
  .mk ⟨"Envelope", "Envelope", []⟩ [] [
    .mk ⟨"Header", "Header", []⟩ [] [.mk ⟨"ResourceURI", "ResourceURI", []⟩ "http://header" []],
    .mk ⟨"Body", "Body", []⟩ [] [referenceTo "http://first" "One"]]

/-- The selectors of the reference are chosen with the resource of the header, which belongs to no
reference. -/
theorem choose_of_header :
    ∃ endpoint, choose withHeader "Service" .empty = .ok endpoint ∧
      ¬∃ reference ∈ references withHeader, ∃ resource ∈ parts "ResourceURI" reference,
        endpoint.resource = resource.text?.getD [] :=
  ⟨⟨"http://header", [("Name", "One")]⟩, by decide⟩

end ManagementShell.Endpoint

import ManagementShell.Endpoint
import ManagementShell.Proofs.Element
import ManagementShell.Proofs.Failure
import ManagementShell.Proofs.Outcome

/-
This file shows where an endpoint that is chosen comes from in the answer to the discovery, and that
it and its references have no character that the answer lacks.
-/

namespace ManagementShell
open Text

variable {c : Char}

namespace Endpoint

/-- The pairs that the filter chooses endpoints with. -/
def Filter.pairs (filter : Filter) : List Text := filter.general.toList ++ filter.specific.map Prod.snd

theorem Filter.pair?_mem {filter : Filter} {parameter pair : Text}
    (isPair : filter.pair? parameter = some pair) : pair ∈ filter.pairs := by
  rw [Filter.pair?] at isPair
  rw [Filter.pairs, List.mem_append]
  cases isSpecific : filter.specific.lookup parameter with
  | none =>
      rw [isSpecific] at isPair
      exact .inl (Option.mem_toList.mpr isPair)
  | some found =>
      rw [isSpecific] at isPair
      cases isPair
      obtain ⟨before, after, isList, _⟩ := List.lookup_eq_some_iff.mp isSpecific
      exact .inr (List.mem_map.mpr ⟨(parameter, pair), by simp [isList], rfl⟩)

/-- Neither the resource nor a selector has the character. -/
structure Lacks (c : Char) (endpoint : Endpoint) : Prop where
  resource : c ∉ endpoint.resource
  selectors : ∀ selector ∈ endpoint.selectors, c ∉ selector.1 ∧ c ∉ selector.2

section

variable {endpoint : Endpoint} (lacks : endpoint.Lacks c) (fresh : Fresh c)
include lacks fresh

theorem url_lacks : c ∉ endpoint.url := by
  have sign : c ∉ ("=" : Text) := fresh.literal (by decide)
  unfold url
  split
  · exact lacks.resource
  · simp only [List.mem_append, not_or]
    refine ⟨⟨lacks.resource, fresh.literal (by decide)⟩,
      join_lacks (fresh.literal (by decide)) fun part member => ?_⟩
    obtain ⟨selector, isSelector, rfl⟩ := List.mem_map.mp member
    simp only [List.mem_append, not_or]
    exact ⟨⟨(lacks.selectors selector isSelector).1, sign⟩, (lacks.selectors selector isSelector).2⟩

omit lacks in
theorem selectorLine_lacks {selector : Text × Text} (lacksName : c ∉ selector.1)
    (lacksValue : c ∉ selector.2) : c ∉ selectorLine selector := by
  have first : c ∉ ("        <w:Selector Name=\"" : Text) := fresh.literal (by decide)
  have middle : c ∉ ("\">" : Text) := fresh.literal (by decide)
  have last : c ∉ ("</w:Selector>" : Text) := fresh.literal (by decide)
  change c ∉ ("        <w:Selector Name=\"" : Text) ++ selector.1 ++ "\">" ++ selector.2 ++ "</w:Selector>"
  simp only [List.mem_append, not_or]
  exact ⟨⟨⟨⟨first, lacksName⟩, middle⟩, lacksValue⟩, last⟩

theorem address_lacks {parameter : Text} (lacksParameter : c ∉ parameter) :
    c ∉ endpoint.address parameter := by
  have resource := lacks.resource
  have lines : c ∉ join "\n" (endpoint.selectors.map selectorLine) := by
    refine join_lacks (fresh.literal (by decide)) fun part member => ?_
    obtain ⟨selector, isSelector, isPart⟩ := List.mem_map.mp member
    obtain ⟨lacksName, lacksValue⟩ := lacks.selectors selector isSelector
    rw [← isPart]
    exact selectorLine_lacks fresh lacksName lacksValue
  unfold address
  simp only [List.mem_append, not_or]
  repeat' apply And.intro
  all_goals first | assumption | exact fresh.literal (by decide)

end

theorem position?_lt {sets : List (List (Text × Text))} {wanted : Option (Text × Text)}
    {position : Nat} (isPosition : position? sets wanted = some position) :
    position < sets.length := by
  unfold position? at isPosition
  split at isPosition
  · split at isPosition
    · cases isPosition
    · rename_i notEmpty
      cases isPosition
      exact List.length_pos_of_ne_nil notEmpty
  · exact (List.findIdx?_eq_some_iff_getElem.mp isPosition).1

section

variable {root : Element} {parameter : Text} {filter : Filter} {endpoint : Endpoint}

theorem choose_mem (chosen : choose root parameter filter = .ok endpoint) :
    endpoint.resource ∈ resources root ∧ endpoint.selectors ∈ selectorSets root := by
  unfold choose at chosen
  dsimp only at chosen
  split at chosen
  · cases chosen
  · rename_i position isPosition
    split at chosen
    · cases chosen
    · rename_i resource isResource
      cases chosen
      refine ⟨List.mem_of_getElem? isResource, ?_⟩
      dsimp only
      rw [List.getD_eq_getElem?_getD, List.getElem?_eq_getElem (position?_lt isPosition),
        Option.getD_some]
      exact List.getElem_mem _

theorem mem_resources {holds : Text → Prop}
    (each : ∀ inner ∈ root.inOrder, ∀ text ∈ inner.text?, holds text) (empty : holds []) :
    ∀ resource ∈ resources root, holds resource := by
  intro resource member
  obtain ⟨element, isElement, rfl⟩ := List.mem_map.mp member
  cases isText : element.text? with
  | none => exact empty
  | some text => exact each element (List.mem_filter.mp isElement).1 text isText

/-- Each selector is read from an element of the document. -/
theorem mem_selectorSets {set : List (Text × Text)} (isSet : set ∈ selectorSets root) :
    ∀ selector ∈ set, ∃ inner ∈ root.inOrder, selector? inner = some selector := by
  intro selector isSelector
  obtain ⟨element, isElement, rfl⟩ := List.mem_map.mp isSet
  obtain ⟨child, isChild, isRead⟩ := List.mem_filterMap.mp isSelector
  exact ⟨child, Element.inOrder_child root element (List.mem_filter.mp isElement).1 child isChild,
    isRead⟩

theorem selector?_eq_some {element : Element} {selector : Text × Text}
    (isSelector : selector? element = some selector) :
    selector.1 ≠ [] ∧ selector.1 ∈ element.tag.attributes.map Prod.snd ∧
      selector.2 = element.text?.getD [] := by
  unfold selector? at isSelector
  split at isSelector
  · split at isSelector
    · cases isSelector
    · cases isSelector
    · rename_i name nonempty isName
      cases isSelector
      obtain ⟨before, after, areAttributes, -⟩ := List.lookup_eq_some_iff.mp isName
      exact ⟨nonempty, by simp [areAttributes], rfl⟩
  · cases isSelector

end

theorem selector?_lacks {element : Element} {selector : Text × Text} (lacks : element.Lacks c)
    (isSelector : selector? element = some selector) : c ∉ selector.1 ∧ c ∉ selector.2 := by
  obtain ⟨-, isName, isValue⟩ := selector?_eq_some isSelector
  obtain ⟨entry, isEntry, same⟩ := List.mem_map.mp isName
  refine ⟨same ▸ lacks.tag.2 entry isEntry, ?_⟩
  rw [isValue]
  cases isText : element.text? with
  | none => exact List.not_mem_nil
  | some text => exact lacks.text text isText

theorem selectorSets_lacks {root : Element} (lacks : root.Lacks c) :
    ∀ set ∈ selectorSets root, ∀ selector ∈ set, c ∉ selector.1 ∧ c ∉ selector.2 := by
  intro set isSet selector isSelector
  obtain ⟨inner, isInner, isRead⟩ := mem_selectorSets isSet selector isSelector
  exact selector?_lacks (Element.inOrder_lacks root lacks inner isInner) isRead

theorem resources_lacks {root : Element} (lacks : root.Lacks c) :
    ∀ resource ∈ resources root, c ∉ resource :=
  mem_resources (fun inner member => (Element.inOrder_lacks root lacks inner member).text)
    List.not_mem_nil

/-- The endpoint comes from the answer; what keeps one from being chosen quotes the filter alone. -/
theorem choose_gives {root : Element} {parameter : Text} {filter : Filter} {holds : Text → Prop}
    (lacks : root.Lacks c) (holdsPairs : ∀ pair ∈ filter.pairs, holds pair) (holdsEmpty : holds []) :
    Gives (choose root parameter filter) (fun endpoint => endpoint.Lacks c) fun fault =>
      fault.Quotes holds := by
  cases chosen : choose root parameter filter with
  | ok endpoint =>
      obtain ⟨isResource, isSet⟩ := choose_mem chosen
      exact ⟨resources_lacks lacks _ isResource, selectorSets_lacks lacks _ isSet⟩
  | error fault =>
      unfold choose at chosen
      dsimp only at chosen
      split at chosen
      · cases chosen
        cases isPair : filter.pair? parameter with
        | none => exact holdsEmpty
        | some pair => exact holdsPairs pair (Filter.pair?_mem isPair)
      · split at chosen
        · cases chosen
          trivial
        · cases chosen

end Endpoint

end ManagementShell

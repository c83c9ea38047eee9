import ManagementShell.Proofs.Element
import ManagementShell.Proofs.Place

/-
This file says which texts a field has in an element, in document order, and shows that a search
without a limit finds these.
-/

namespace ManagementShell
open Text

namespace Element

/-- The text of the element itself, if the element has this field. -/
def value? (field : Text) (element : Element) : Option Text :=
  if Extraction.isNamed field element.tag then element.text? else none

/-- The texts of the field in the element and all elements inside it. -/
def values (field : Text) (root : Element) : List Text := root.inOrder.filterMap (value? field)

variable (field : Text)

theorem values_mk (tag : Tag) (text : Text) (children : List Element) :
    (Element.mk tag text children).values field =
      ((Element.mk tag text children).value? field).toList ++ children.flatMap (values field) := by
  rw [values, inOrder, inOrderAll_eq, List.filterMap_cons, List.filterMap_flatMap]
  cases (Element.mk tag text children).value? field <;> rfl

variable {field}

theorem mem_values {root : Element} {value : Text} : value ∈ root.values field ↔
    ∃ leaf ∈ root.inOrder, Extraction.isNamed field leaf.tag = true ∧ leaf.text? = some value := by
  rw [values, List.mem_filterMap]
  refine exists_congr fun leaf => and_congr_right fun _ => ?_
  rw [value?]
  split <;> simp_all

mutual

/-- The texts that lie in an inner element are next to each other. -/
theorem placeFrom_values (parent : Option Nat) (start number : Nat) (element : Element) :
    ∀ place ∈ placeFrom parent start number element,
      place.element.values field <:+: element.values field := by
  obtain ⟨tag, text, children⟩ := element
  rw [placeFrom]
  split
  · rintro _ ⟨⟩
    exact List.infix_rfl
  · intro place isPlace
    rw [values_mk]
    exact (placeAmong_values _ _ _ children place isPlace).trans
      (List.suffix_append _ _).isInfix

theorem placeAmong_values (parent : Option Nat) (start number : Nat) (elements : List Element) :
    ∀ place ∈ placeAmong parent start number elements,
      place.element.values field <:+: elements.flatMap (values field) := by
  cases elements with
  | nil => exact fun _ none => by cases none
  | cons first rest =>
      intro place isPlace
      rw [List.flatMap_cons]
      rw [placeAmong] at isPlace
      split at isPlace
      · exact (placeFrom_values _ _ _ first place isPlace).trans (List.prefix_append _ _).isInfix
      · exact (placeAmong_values _ _ _ rest place isPlace).trans (List.suffix_append _ _).isInfix

end

theorem place?_values {root : Element} {number : Nat} {place : Place}
    (isPlace : root.place? number = some place) :
    place.element.values field <:+: root.values field := placeFrom_values none 0 number root place isPlace

end Element

namespace Extraction

variable (field : Text)

mutual

theorem searchFrom_values (found : List Match) (parent : Option Nat) (number : Nat)
    (element : Element) : (searchFrom field none found parent number element).map Match.value =
      found.map Match.value ++ element.values field := by
  obtain ⟨tag, text, children⟩ := element
  rw [Element.values_mk]
  cases children with
  | nil =>
      rw [searchFrom, Element.value?]
      split <;> simp_all [Element.tag, Element.text?]
  | cons first rest =>
      rw [searchFrom, searchAmong_values, Element.value?]
      split <;> rfl

theorem searchAmong_values (found : List Match) (parent : Option Nat) (number : Nat)
    (elements : List Element) :
    (searchAmong field none found parent number elements).map Match.value =
      found.map Match.value ++ elements.flatMap (Element.values field) := by
  cases elements with
  | nil => simp [searchAmong]
  | cons first rest =>
      rw [searchAmong, isReached, if_neg Bool.false_ne_true, searchAmong_values, searchFrom_values,
        List.append_assoc, List.flatMap_cons]

end

/-- A search without a limit finds all texts of the field. -/
theorem findAll_values (scope : Element.Place) :
    (findAll scope field none).map Match.value = scope.element.values field :=
  searchFrom_values field [] scope.parent scope.number scope.element

end Extraction

/-- A condition on a field holds if the field has the value somewhere. -/
theorem Query.find?_isSome (field value : Text) (scope : Element.Place) :
    ((⟨field, some value, none⟩ : Query).find? scope).isSome = true ↔
      value ∈ scope.element.values field := by
  rw [← Extraction.findAll_values, List.mem_map, find?, List.find?_isSome]
  exact exists_congr fun found => and_congr_right fun _ => beq_iff_eq

end ManagementShell

import ManagementShell.Proofs.Enumeration.Parts
import ManagementShell.Proofs.Extraction.Rows
import Mathlib.Data.List.Flatten
import Mathlib.Data.List.Perm.Basic

/-
This file shows what two enumerations have in common that differ in the order of their instances
only.
-/

namespace ManagementShell.Enumeration
open Text Outline

/-- The elements of the lists are related, perhaps in another order. -/
def InAnyOrder {α : Type} (relates : α → α → Prop) (list other : List α) : Prop :=
  ∃ order, list.Perm order ∧ List.Forall₂ relates order other

/-- What a layer holds may be in another order; the instances are the same. -/
def Rearranged : List (List Text) → Element → Element → Prop
  | [], element, other => element = other
  | _ :: inner, .mk tag text children, .mk otherTag otherText others =>
      tag = otherTag ∧ text = otherText ∧ InAnyOrder (Rearranged inner) children others

section

variable {α β : Type} {relates : α → α → Prop} {list other : List α}

theorem InAnyOrder.length_eq (same : InAnyOrder relates list other) : list.length = other.length := by
  obtain ⟨order, perm, each⟩ := same
  exact perm.length_eq.trans each.length_eq

theorem InAnyOrder.exists_of_mem (same : InAnyOrder relates list other) {second : α}
    (member : second ∈ other) : ∃ first ∈ list, relates first second := by
  obtain ⟨order, perm, each⟩ := same
  obtain ⟨sameLength, related⟩ := List.forall₂_iff_get.mp each
  obtain ⟨index, inside, rfl⟩ := List.getElem_of_mem member
  have isPlace : index < order.length := sameLength ▸ inside
  exact ⟨order[index], perm.mem_iff.mpr (List.getElem_mem isPlace), related index isPlace inside⟩

theorem InAnyOrder.flatMap {give : α → List β} (same : InAnyOrder relates list other)
    (gives : ∀ {first second}, relates first second → (give first).Perm (give second)) :
    (list.flatMap give).Perm (other.flatMap give) := by
  obtain ⟨order, perm, each⟩ := same
  refine (perm.flatMap_right give).trans (List.Perm.flatten_congr ?_)
  rw [List.forall₂_map_left_iff, List.forall₂_map_right_iff]
  exact each.imp fun _ _ => gives

end

theorem instances_cons (names : List Text) (inner : List (List Text)) (root : Element) :
    instances (names :: inner) root = root.children.flatMap fun child =>
      if child.tag.base ∈ leftOut then [] else instances inner child := by
  rw [instances]
  induction root.children with
  | nil => rfl
  | cons first rest inductionHypothesis =>
      rw [List.filter_cons, List.flatMap_cons, ← inductionHypothesis]
      by_cases isLeftOut : first.tag.base ∈ leftOut <;> simp [isLeftOut]

namespace Rearranged

variable {around : List (List Text)} {root other : Element}

theorem tag (same : Rearranged around root other) : root.tag = other.tag := by
  cases around with
  | nil => exact congrArg _ same
  | cons names inner =>
      obtain ⟨_, _, _⟩ := root
      obtain ⟨_, _, _⟩ := other
      exact same.1

theorem text? (same : Rearranged around root other) : root.text? = other.text? := by
  cases around with
  | nil => exact congrArg _ same
  | cons names inner =>
      obtain ⟨_, _, children⟩ := root
      obtain ⟨_, _, others⟩ := other
      obtain ⟨rfl, rfl, reordered⟩ := same
      have sameLength := reordered.length_eq
      cases children <;> cases others <;> first | rfl | simp at sameLength

theorem children {names : List Text} (same : Rearranged (names :: around) root other) :
    InAnyOrder (Rearranged around) root.children other.children := by
  obtain ⟨_, _, _⟩ := root
  obtain ⟨_, _, _⟩ := other
  exact same.2.2

theorem form (same : Rearranged around root other) (form : HasForm around root) :
    HasForm around other := by
  induction around generalizing root other with
  | nil => exact (show root = other from same) ▸ form
  | cons names inner inductionHypothesis =>
      obtain ⟨isLayer, noText, each⟩ := form
      refine ⟨same.tag ▸ isLayer, same.text? ▸ noText, fun child isChild isKept => ?_⟩
      obtain ⟨first, isFirst, related⟩ := same.children.exists_of_mem isChild
      exact inductionHypothesis related (each first isFirst (related.tag ▸ isKept))

/-- The same texts are found, but in another order. -/
theorem values_perm (same : Rearranged around root other) (field : Text) :
    (root.values field).Perm (other.values field) := by
  induction around generalizing root other with
  | nil => exact (show root = other from same) ▸ .refl _
  | cons names inner inductionHypothesis =>
      have sameValue : root.value? field = other.value? field := by
        rw [Element.value?, Element.value?, same.tag, same.text?]
      have within := same.children.flatMap fun related => inductionHypothesis related
      obtain ⟨tag, text, children⟩ := root
      obtain ⟨otherTag, otherText, others⟩ := other
      rw [Element.values_mk, Element.values_mk, sameValue]
      exact within.append_left _

theorem instances_perm (same : Rearranged around root other) :
    (instances around root).Perm (instances around other) := by
  induction around generalizing root other with
  | nil => exact (show root = other from same) ▸ .refl _
  | cons names inner inductionHypothesis =>
      rw [instances_cons, instances_cons]
      refine same.children.flatMap fun {first second} related => ?_
      rw [related.tag]
      split
      · exact .refl _
      · exact inductionHypothesis related

end Rearranged

section

variable {around : List (List Text)} {root other : Element} {field : Text}

/-- The instances are parts of the answer in document order. -/
theorem sublist_values (around : List (List Text)) (root : Element) (field : Text) :
    ((instances around root).flatMap (Element.values field)).Sublist (root.values field) := by
  induction around generalizing root with
  | nil => rw [instances, List.flatMap_singleton]
  | cons names inner inductionHypothesis =>
      obtain ⟨tag, text, children⟩ := root
      rw [instances, List.flatMap_assoc, Element.values_mk]
      refine (List.filter_sublist.flatMap _).trans ?_
      refine .trans ?_ (List.sublist_append_right _ _)
      exact .flatMap_right _ fun child _ => inductionHypothesis child

/-- The field has one value in each instance, and none outside of the instances. -/
structure OccursOnce (root : Element) (field : Text) : Prop where
  inside : root.values field = (instances layers root).flatMap (Element.values field)
  once : ∀ entry ∈ instances layers root, ∃ value, entry.values field = [value]

instance (root : Element) (field : Text) : Decidable (OccursOnce root field) :=
  decidable_of_iff (root.values field = (instances layers root).flatMap (Element.values field) ∧
    ∀ entry ∈ instances layers root, (entry.values field).length = 1)
    ⟨fun once => ⟨once.1, fun entry isEntry => List.length_eq_one_iff.mp (once.2 entry isEntry)⟩,
      fun once => ⟨once.inside, fun entry isEntry =>
        List.length_eq_one_iff.mpr (once.once entry isEntry)⟩⟩

/-- The value of a field that has one. -/
def valueIn (field : Text) (entry : Element) : Text := (entry.values field).headD []

theorem OccursOnce.values (once : OccursOnce root field) :
    root.values field = (instances layers root).map (valueIn field) := by
  rw [once.inside, List.map_eq_flatMap]
  refine List.flatMap_congr fun entry isEntry => ?_
  obtain ⟨value, isValue⟩ := once.once entry isEntry
  rw [valueIn, isValue]
  rfl

/-- Every field occurs as often in the other answer, and what occurs in the instances still does. -/
theorem OccursOnce.rearranged (once : OccursOnce root field) (same : Rearranged layers root other) :
    OccursOnce other field where
  inside := by
    refine ((sublist_values layers other field).eq_of_length ?_).symm
    rw [← (same.values_perm field).length_eq, once.inside,
      (same.instances_perm.flatMap_right (Element.values field)).length_eq]
  once entry isEntry := once.once entry (same.instances_perm.mem_iff.mpr isEntry)

end

/-- An element as a document gives it that has no spaces of names. -/
def node (name text : Text) (children : List Element) : Element := .mk ⟨name, name, []⟩ text children

/-- An answer with these instances. -/
def listing (entries : List Element) : Element :=
  ["Results", "Envelope", "Body", "PullResponse"].foldr
    (fun (name : String) inside => node name [] [inside]) (node "Items" [] entries)

theorem rearranged_listing {entries others : List Element} (perm : entries.Perm others) :
    Rearranged layers (listing entries) (listing others) := by
  have items : Rearranged [["Items"]] (node "Items" [] entries) (node "Items" [] others) :=
    ⟨rfl, rfl, others, perm, List.forall₂_same.mpr fun _ _ => rfl⟩
  have around {names : List Text} {inner : List (List Text)} {first second : Element} (name : Text)
      (same : Rearranged inner first second) :
      Rearranged (names :: inner) (node name [] [first]) (node name [] [second]) :=
    ⟨rfl, rfl, [first], .refl _, .cons same .nil⟩
  exact around _ (around _ (around _ (around _ items)))

end ManagementShell.Enumeration

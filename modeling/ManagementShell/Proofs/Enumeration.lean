import ManagementShell.Proofs.Text.Parts
import ManagementShell.Proofs.Xml.Locality
import ManagementShell.Response

/-
This file describes the answers that enumerate instances, and shows that the text of such an answer
has a part for each instance.
-/

namespace ManagementShell

namespace Outline
open Text

mutual

theorem element_ends (indent added : Text) (root : Element) :
    (element indent added root).getLast? = some '\n' := by
  obtain ⟨tag, text, children⟩ := root
  rw [element]
  rcases elements_ends (indent ++ added) "  " children with isEmpty | ends
  · rw [isEmpty, List.append_nil]
    exact ends_append rfl _
  · exact ends_append ends _

theorem elements_ends (indent added : Text) (roots : List Element) :
    elements indent added roots = [] ∨ (elements indent added roots).getLast? = some '\n' := by
  cases roots with
  | nil => exact .inl rfl
  | cons first rest =>
      rw [elements]
      split
      · exact elements_ends indent added rest
      · refine .inr ?_
        dsimp only
        have ends := element_ends indent (indentation added first.tag) first
        rcases elements_ends indent (indentation added first.tag) rest with isEmpty | restEnds
        · rw [isEmpty, List.append_nil]
          split
          · exact ends_append rfl _
          · simpa using ends
        · exact ends_append restEnds _

end

end Outline

theorem Response.text_ofOutput {raw : Text} {root : Element}
    (isTree : (ofOutput raw).tree = some root) : (ofOutput raw).text = root.outline := by
  unfold ofOutput at isTree ⊢
  dsimp only at isTree ⊢
  split at isTree
  · cases isTree
    rfl
  · cases isTree

namespace Enumeration
open Text Outline

/-- The elements around the instances, from the root inwards. -/
def layers : List (List Text) :=
  [["Results"], ["Envelope"], ["Body"], ["PullResponse", "EnumerateResponse"], ["Items"]]

/-- An element that the outline shows by its own name. -/
def IsInstance (tag : Tag) : Prop :=
  tag.base ∉ wrappers ∧ tag.base ∉ leftOut ∧ tag.base ≠ selector ∧ Visible tag.base

/-- The element has the shape of an enumeration, if elements that are left out do not count. -/
def HasShape : List (List Text) → Element → Prop
  | [], element => IsInstance element.tag
  | names :: inner, element => element.tag.base ∈ names ∧
      ∀ child ∈ element.children, child.tag.base ∉ leftOut → HasShape inner child

instance (tag : Tag) : Decidable (IsInstance tag) := inferInstanceAs (Decidable (_ ∧ _))

def decideHasShape : (around : List (List Text)) → (element : Element) →
    Decidable (HasShape around element)
  | [], element => inferInstanceAs (Decidable (IsInstance element.tag))
  | names :: inner, element =>
      haveI := decideHasShape inner
      inferInstanceAs (Decidable (element.tag.base ∈ names ∧
        ∀ child ∈ element.children, child.tag.base ∉ leftOut → HasShape inner child))

instance (around : List (List Text)) (element : Element) : Decidable (HasShape around element) :=
  decideHasShape around element

def instances : List (List Text) → Element → List Element
  | [], element => [element]
  | _ :: inner, element =>
      (element.children.filter fun child => !leftOut.contains child.tag.base).flatMap
        (instances inner)

theorem elements_hasParts {inner : List (List Text)} {children : List Element}
    (each : ∀ child ∈ children, child.tag.base ∉ leftOut → ∀ added,
      HasParts (instances inner child).length (element [] (indentation added child.tag) child))
    (added : Text) :
    HasParts ((children.filter fun child => !leftOut.contains child.tag.base).flatMap
      (instances inner)).length (elements [] added children) := by
  induction children generalizing added with
  | nil => exact .none _
  | cons first rest inductionHypothesis =>
      have later := inductionHypothesis fun child member => each child (List.mem_cons_of_mem _ member)
      rw [elements]
      split
      · rename_i isLeftOut
        rw [List.filter_cons_of_neg (by simpa using isLeftOut)]
        exact later added
      · rename_i isShown
        have isKept : first.tag.base ∉ leftOut := by simpa using isShown
        have parts := each first (List.mem_cons_self ..) isKept added
        rw [List.filter_cons_of_pos (by simpa using isKept), List.flatMap_cons, List.length_append]
        dsimp only
        cases rest with
        | nil => simpa [elements] using parts
        | cons second rest =>
            rw [if_pos ⟨rfl, Nat.succ_ne_zero _⟩]
            exact parts.join (later _) (element_ends _ _ first)

theorem ne_selector {name : Text} (isWrapper : name ∈ wrappers) : name ≠ selector := by
  rintro rfl
  exact absurd isWrapper (by decide)

theorem indentation_wrapper (added : Text) {tag : Tag} (isWrapper : tag.base ∈ wrappers) :
    indentation added tag = [] :=
  if_pos ⟨ne_selector isWrapper, by simpa using isWrapper⟩

/-- The outline has a part for each instance, since wrappers do not indent what they hold. -/
theorem element_hasParts {around : List (List Text)}
    (areWrappers : ∀ names ∈ around, ∀ name ∈ names, name ∈ wrappers) {root : Element}
    (shape : HasShape around root) (added : Text) :
    HasParts (instances around root).length (element [] (indentation added root.tag) root) := by
  induction around generalizing root added with
  | nil =>
      obtain ⟨tag, text, children⟩ := root
      have isInstance : IsInstance tag := shape
      obtain ⟨noWrapper, _, noSelector, visible⟩ := isInstance
      rw [element, shownName, if_neg noSelector, if_neg (by simpa using noWrapper),
        List.append_assoc, List.append_assoc]
      exact .last (visible.append_right _)
  | cons names inner inductionHypothesis =>
      obtain ⟨tag, text, children⟩ := root
      obtain ⟨isNamed, each⟩ := shape
      have isWrapper : tag.base ∈ wrappers := areWrappers names (List.mem_cons_self ..) _ isNamed
      rw [Element.tag, indentation_wrapper _ isWrapper, element]
      refine HasParts.prepend (elements_hasParts (fun child member isKept => ?_) "  ") _
      exact inductionHypothesis (fun names member => areWrappers names (List.mem_cons_of_mem _ member))
        (each child member isKept)

/-- The text of an enumeration has a part for each instance, or more. -/
theorem instances_le_parts {raw : Text} {root : Element}
    (isTree : (Response.ofOutput raw).tree = some root) (shape : HasShape layers root) :
    (instances layers root).length ≤ (Response.ofOutput raw).parts := by
  have isRoot : root.tag.base ∉ leftOut := by
    have isResults : root.tag.base = "Results" := List.mem_singleton.mp shape.1
    rw [isResults]
    decide
  have areWrappers : ∀ names ∈ layers, ∀ name ∈ names, name ∈ wrappers := by decide
  have outlined : HasParts (instances layers root).length (elements [] "  " [root]) := by
    have parts := element_hasParts areWrappers shape "  "
    rw [elements, if_neg (by simpa using isRoot)]
    simpa [elements] using parts
  have shown := (outlined.squeezeFrom 0).trim
  rw [Response.parts, Response.text_ofOutput isTree, Element.outline]
  split
  · rename_i isEmpty
    rw [isEmpty] at shown
    cases isCount : (instances layers root).length with
    | zero => exact Nat.zero_le _
    | succ count =>
        rw [isCount] at shown
        cases shown.visible.ne_nil rfl
  · exact shown.le_occurrences

end Enumeration

end ManagementShell

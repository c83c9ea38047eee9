import ManagementShell.Proofs.Enumeration
import ManagementShell.Proofs.Text.Paragraph
import ManagementShell.Proofs.Xml.Naming

/-
This file describes the answers that enumerate instances by the names of their elements alone. It
shows what holds of their instances and how their text is composed of those of the instances.
-/

namespace ManagementShell

namespace Element

mutual

def decideSame : (first second : Element) → Decidable (first = second)
  | .mk tag text children, .mk otherTag otherText others =>
      haveI := decideAllSame children others
      decidable_of_iff (tag = otherTag ∧ text = otherText ∧ children = others)
        (Element.mk.injEq .. ▸ Iff.rfl)

def decideAllSame : (first second : List Element) → Decidable (first = second)
  | [], [] => isTrue rfl
  | [], _ :: _ => isFalse (List.cons_ne_nil _ _).symm
  | _ :: _, [] => isFalse (List.cons_ne_nil _ _)
  | first :: rest, other :: others =>
      haveI := decideSame first other
      haveI := decideAllSame rest others
      decidable_of_iff (first = other ∧ rest = others) (List.cons.injEq .. ▸ Iff.rfl)

end

instance : DecidableEq Element := decideSame

end Element

namespace Enumeration
open Text Outline

/-- The element is no layer, is not left out, and is shown by its own name. -/
def IsOrdinary (element : Element) : Prop :=
  element.tag.base ∉ wrappers ∧ element.tag.base ∉ leftOut ∧ element.tag.base ≠ selector

/-- The layers have no text of their own and hold nothing but the next layer and what is left out,
and the elements inside the innermost one are ordinary. -/
def HasForm : List (List Text) → Element → Prop
  | [], element => ∀ inner ∈ element.inOrder, IsOrdinary inner
  | names :: inner, element => element.tag.base ∈ names ∧ (∀ text ∈ element.text?, text = []) ∧
      ∀ child ∈ element.children, child.tag.base ∉ leftOut → HasForm inner child

instance (element : Element) : Decidable (IsOrdinary element) := inferInstanceAs (Decidable (_ ∧ _))

def decideHasForm : (around : List (List Text)) → (element : Element) →
    Decidable (HasForm around element)
  | [], element => inferInstanceAs (Decidable (∀ inner ∈ element.inOrder, IsOrdinary inner))
  | names :: inner, element =>
      haveI := decideHasForm inner
      inferInstanceAs (Decidable (element.tag.base ∈ names ∧ (∀ text ∈ element.text?, text = []) ∧
        ∀ child ∈ element.children, child.tag.base ∉ leftOut → HasForm inner child))

instance (around : List (List Text)) (element : Element) : Decidable (HasForm around element) :=
  decideHasForm around element

section

variable {around : List (List Text)} {root entry : Element}

/-- What goes from each layer to the elements that it holds holds of the instances in the end. -/
theorem forall_instances {holds : List (List Text) → Element → Prop}
    (goesIn : ∀ {names around root}, holds (names :: around) root →
      ∀ child ∈ root.children, child.tag.base ∉ leftOut → holds around child)
    (atRoot : holds around root) : ∀ entry ∈ instances around root, holds [] entry := by
  induction around generalizing root with
  | nil => exact List.forall_mem_singleton.mpr atRoot
  | cons names around inductionHypothesis =>
      intro entry isEntry
      obtain ⟨child, isChild, isInside⟩ := List.mem_flatMap.mp isEntry
      obtain ⟨isChild, isKept⟩ := List.mem_filter.mp isChild
      exact inductionHypothesis (goesIn atRoot child isChild (by simpa using isKept)) entry isInside

theorem HasForm.instances (form : HasForm around root) :
    ∀ entry ∈ instances around root, ∀ inner ∈ entry.inOrder, IsOrdinary inner :=
  forall_instances (fun form => form.2.2) form

/-- What holds of all elements holds of those inside an instance. -/
theorem forall_inOrder_instances {holds : Element → Prop} (each : ∀ inner ∈ root.inOrder, holds inner) :
    ∀ entry ∈ instances around root, ∀ inner ∈ entry.inOrder, holds inner := by
  refine @forall_instances around root (fun _ element => ∀ inner ∈ element.inOrder, holds inner)
    (fun {_ _ root} each child isChild _ => ?_) each
  obtain ⟨tag, text, children⟩ := root
  exact (Element.forall_inOrder_mk.mp each).2 child isChild

/-- Without selectors, a field is the name of an element. -/
theorem isBase_of_mem_values (ordinary : ∀ inner ∈ entry.inOrder, IsOrdinary inner)
    (named : entry.AllNamed) {field value : Text} (member : value ∈ entry.values field) :
    Xml.IsBase field := by
  obtain ⟨leaf, isLeaf, isNamed, -⟩ := Element.mem_values.mp member
  have noSelector : leaf.tag.base ≠ selector := (ordinary leaf isLeaf).2.2
  have isField : leaf.tag.base = field := by simpa [Extraction.isNamed, noSelector] using isNamed
  exact isField ▸ named leaf isLeaf

theorem ordinary_self (ordinary : ∀ inner ∈ root.inOrder, IsOrdinary inner) : IsOrdinary root := by
  obtain ⟨tag, text, children⟩ := root
  exact (Element.forall_inOrder_mk.mp ordinary).1

theorem indentation_ordinary (added : Text) (ordinary : IsOrdinary root) :
    indentation added root.tag = added :=
  if_neg fun isWrapper => ordinary.1 (by simpa using isWrapper.2)

end

/-- The indentation of the elements inside some layers. -/
def indentationIn (around : List (List Text)) : Text := if around = [] then "  " else []

/-- A layer shows an empty line, and what it holds begins a line of its own again. -/
theorem element_wrapper {tag : Tag} {text : Text} {children : List Element}
    (isWrapper : tag.base ∈ wrappers)
    (noText : ∀ shown ∈ (Element.mk tag text children).text?, shown = []) :
    element [] [] (.mk tag text children) = '\n' :: elements [] "  " children := by
  have nothing : shownText (Element.mk tag text children).text? = [] := by
    cases isText : (Element.mk tag text children).text? with
    | none => rfl
    | some shown => rw [noText shown isText, shownText]
  rw [element, shownName, if_neg (ne_selector isWrapper), if_pos (by simpa using isWrapper), nothing]
  rfl

theorem elements_singleton {root : Element} (isKept : root.tag.base ∉ leftOut) (added : Text) :
    elements [] added [root] = element [] (indentation added root.tag) root := by
  rw [elements, if_neg (by simpa using isKept)]
  simp [elements]

/-- A relation between elements that follow each other and their text, where a line feed stands
between the texts of two elements, and more of them may stand before a text. -/
structure IsComposed (holds : List Element → Text → Prop) : Prop where
  none : holds [] []
  feed : ∀ {entries text}, holds entries text → holds entries ('\n' :: text)
  join : ∀ {entries more text rest}, holds entries text → holds more rest →
    holds (entries ++ more) (text ++ '\n' :: rest)

namespace IsComposed

variable {holds : List Element → Text → Prop} (composed : IsComposed holds)
include composed

/-- The elements that are not left out follow each other with a line feed between them, if all of
them are indented alike. -/
theorem elements {inner : List (List Text)} {children : List Element} {next : Text}
    (each : ∀ child ∈ children, child.tag.base ∉ leftOut →
      holds (instances inner child) (element [] next child))
    (alike : ∀ child ∈ children, child.tag.base ∉ leftOut →
      indentation "  " child.tag = next ∧ indentation next child.tag = next)
    {added : Text} (isAdded : added = "  " ∨ added = next) :
    holds ((children.filter fun child => !leftOut.contains child.tag.base).flatMap
      (instances inner)) (Outline.elements [] added children) := by
  induction children generalizing added with
  | nil => exact composed.none
  | cons first rest inductionHypothesis =>
      rw [List.forall_mem_cons] at each alike
      have later := @inductionHypothesis each.2 alike.2
      rw [Outline.elements]
      split
      · rename_i isLeftOut
        rw [List.filter_cons_of_neg (by simpa using isLeftOut)]
        exact later isAdded
      · rename_i isShown
        have isKept : first.tag.base ∉ leftOut := by simpa using isShown
        have isNext : indentation added first.tag = next := by
          rcases isAdded with rfl | rfl
          · exact (alike.1 isKept).1
          · exact (alike.1 isKept).2
        rw [List.filter_cons_of_pos (by simpa using isKept), List.flatMap_cons]
        dsimp only
        rw [isNext]
        cases rest with
        | nil => simpa [Outline.elements] using each.1 isKept
        | cons second rest =>
            rw [if_pos ⟨rfl, Nat.succ_ne_zero _⟩, List.append_assoc]
            exact composed.join (each.1 isKept) (later (.inr rfl))

/-- What holds of the text of each instance holds of the text of the answer. -/
theorem layers {around : List (List Text)}
    (areWrappers : ∀ names ∈ around, ∀ name ∈ names, name ∈ wrappers) {root : Element}
    (form : HasForm around root)
    (each : ∀ entry ∈ instances around root, holds [entry] (element [] "  " entry)) :
    holds (instances around root) (element [] (indentationIn around) root) := by
  induction around generalizing root with
  | nil => exact each root (List.mem_singleton_self root)
  | cons names inner inductionHypothesis =>
      obtain ⟨tag, text, children⟩ := root
      obtain ⟨isLayer, noText, forms⟩ := form
      rw [List.forall_mem_cons] at areWrappers
      have isWrapper : tag.base ∈ wrappers := areWrappers.1 _ isLayer
      rw [indentationIn, if_neg (List.cons_ne_nil _ _), element_wrapper isWrapper noText]
      refine composed.feed (@elements _ composed _ _ (indentationIn inner)
        (fun child isChild isKept => ?_) (fun child isChild isKept => ?_) _ (.inl rfl))
      · refine inductionHypothesis areWrappers.2 (forms child isChild isKept) fun entry isEntry => ?_
        refine each entry (List.mem_flatMap.mpr ⟨child, List.mem_filter.mpr ⟨isChild, ?_⟩, isEntry⟩)
        simpa using isKept
      · have form := forms child isChild isKept
        cases inner with
        | nil =>
            have ordinary := ordinary_self form
            exact ⟨indentation_ordinary _ ordinary, indentation_ordinary _ ordinary⟩
        | cons names inner =>
            have isWrapper := areWrappers.2 names (List.mem_cons_self ..) _ form.1
            exact ⟨indentation_wrapper _ isWrapper, indentation_wrapper _ isWrapper⟩

end IsComposed

end Enumeration

end ManagementShell

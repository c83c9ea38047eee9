import ManagementShell.Element.Outline
import ManagementShell.Proofs.Text.Lacks

/-
This file shows that what is read off a tree of elements has no character that the tree lacks. The
children of an element inside the tree are inside the tree as well.
-/

namespace ManagementShell
open Text

variable {c : Char}

/-- Neither the name nor a value of an attribute has the character. -/
def Tag.Lacks (c : Char) (tag : Tag) : Prop :=
  c ∉ tag.base ∧ ∀ entry ∈ tag.attributes, c ∉ entry.2

instance (tag : Tag) : Decidable (tag.Lacks c) :=
  inferInstanceAs (Decidable (c ∉ tag.base ∧ ∀ entry ∈ tag.attributes, c ∉ entry.2))

namespace Element

mutual

/-- Nothing in the tree has the character. -/
def Lacks (c : Char) : Element → Prop
  | .mk tag text children => tag.Lacks c ∧ c ∉ text ∧ AllLack c children

def AllLack (c : Char) : List Element → Prop
  | [] => True
  | first :: rest => first.Lacks c ∧ AllLack c rest

end

mutual

def decideLacks (c : Char) : (element : Element) → Decidable (element.Lacks c)
  | .mk tag text children =>
      haveI := decideAllLack c children
      inferInstanceAs (Decidable (tag.Lacks c ∧ c ∉ text ∧ AllLack c children))

def decideAllLack (c : Char) : (elements : List Element) → Decidable (AllLack c elements)
  | [] => inferInstanceAs (Decidable True)
  | first :: rest =>
      haveI := decideLacks c first
      haveI := decideAllLack c rest
      inferInstanceAs (Decidable (first.Lacks c ∧ AllLack c rest))

end

instance (element : Element) : Decidable (element.Lacks c) := decideLacks c element

theorem Lacks.text {element : Element} (lacks : element.Lacks c) :
    ∀ text ∈ element.text?, c ∉ text := by
  obtain ⟨tag, text, children⟩ := element
  cases children with
  | nil =>
      rintro _ ⟨⟩
      exact lacks.2.1
  | cons first rest => simp [text?]

theorem Lacks.tag {element : Element} (lacks : element.Lacks c) : element.tag.Lacks c := by
  obtain ⟨tag, text, children⟩ := element
  exact lacks.1

theorem Lacks.children {element : Element} (lacks : element.Lacks c) :
    AllLack c element.children := by
  obtain ⟨tag, text, children⟩ := element
  exact lacks.2.2

theorem AllLack.member {elements : List Element} (lacks : AllLack c elements) :
    ∀ element ∈ elements, element.Lacks c := by
  induction elements with
  | nil => simp
  | cons first rest inductionHypothesis =>
      simp only [List.mem_cons, forall_eq_or_imp]
      exact ⟨lacks.1, inductionHypothesis lacks.2⟩

theorem attribute?_lacks {tag : Tag} {name value : Text} (lacks : tag.Lacks c)
    (isValue : attribute? tag name = some value) : c ∉ value := by
  rw [attribute?, List.lookup_eq_some_iff] at isValue
  obtain ⟨before, after, isTag, _⟩ := isValue
  exact lacks.2 (name, value) (by simp [isTag])

theorem inOrderAll_eq (elements : List Element) :
    inOrderAll elements = elements.flatMap inOrder := by
  induction elements with
  | nil => rfl
  | cons first rest inductionHypothesis =>
      rw [inOrderAll, inductionHypothesis, List.flatMap_cons]

theorem self_mem_inOrder (element : Element) : element ∈ element.inOrder := by
  obtain ⟨tag, text, children⟩ := element
  rw [inOrder]
  exact List.mem_cons_self

mutual

/-- What is inside an element that is inside another one is inside that one as well. -/
theorem inOrder_child (root : Element) :
    ∀ element ∈ root.inOrder, ∀ child ∈ element.children, child ∈ root.inOrder := by
  obtain ⟨tag, text, children⟩ := root
  simp only [inOrder, List.forall_mem_cons]
  refine ⟨fun child isChild => List.mem_cons_of_mem _ ?_, fun element member child isChild =>
    List.mem_cons_of_mem _ (inOrderAll_child children element member child isChild)⟩
  rw [inOrderAll_eq]
  exact List.mem_flatMap.mpr ⟨child, isChild, self_mem_inOrder child⟩

theorem inOrderAll_child (elements : List Element) :
    ∀ element ∈ inOrderAll elements, ∀ child ∈ element.children, child ∈ inOrderAll elements := by
  cases elements with
  | nil => exact List.forall_mem_nil _
  | cons first rest =>
      simp only [inOrderAll, List.forall_mem_append]
      exact ⟨fun element member child isChild =>
          List.mem_append_left _ (inOrder_child first element member child isChild),
        fun element member child isChild =>
          List.mem_append_right _ (inOrderAll_child rest element member child isChild)⟩

end

mutual

theorem inOrder_lacks (root : Element) (lacks : root.Lacks c) :
    ∀ element ∈ root.inOrder, element.Lacks c := by
  obtain ⟨tag, text, children⟩ := root
  rw [inOrder]
  simp only [List.mem_cons, forall_eq_or_imp]
  exact ⟨lacks, inOrderAll_lacks children lacks.2.2⟩

theorem inOrderAll_lacks (elements : List Element) (lacks : AllLack c elements) :
    ∀ element ∈ inOrderAll elements, element.Lacks c := by
  cases elements with
  | nil => simp [inOrderAll]
  | cons first rest =>
      rw [inOrderAll]
      simp only [List.mem_append, or_imp, forall_and]
      exact ⟨inOrder_lacks first lacks.1, inOrderAll_lacks rest lacks.2⟩

end

mutual

theorem placeFrom_lacks (parent : Option Nat) (start number : Nat) (element : Element)
    (lacks : element.Lacks c) :
    ∀ place ∈ placeFrom parent start number element, place.element.Lacks c := by
  obtain ⟨tag, text, children⟩ := element
  rw [placeFrom]
  split
  · rintro _ ⟨⟩
    exact lacks
  · exact placeAmong_lacks _ _ _ children lacks.2.2

theorem placeAmong_lacks (parent : Option Nat) (start number : Nat) (elements : List Element)
    (lacks : AllLack c elements) :
    ∀ place ∈ placeAmong parent start number elements, place.element.Lacks c := by
  cases elements with
  | nil => simp [placeAmong]
  | cons first rest =>
      rw [placeAmong]
      split
      · exact placeFrom_lacks _ _ _ first lacks.1
      · exact placeAmong_lacks _ _ _ rest lacks.2

end

end Element

/-- Neither the tag nor the text of the node has the character. -/
def Node.Lacks (c : Char) (node : Node) : Prop := node.tag.Lacks c ∧ ∀ text ∈ node.text, c ∉ text

namespace Element

mutual

theorem nodesFrom_lacks (parent : Option Nat) (start : Nat) (element : Element)
    (lacks : element.Lacks c) : ∀ node ∈ nodesFrom parent start element, node.Lacks c := by
  obtain ⟨tag, text, children⟩ := element
  rw [nodesFrom]
  simp only [List.mem_cons, forall_eq_or_imp]
  exact ⟨⟨lacks.1, lacks.text⟩, nodesOfAll_lacks _ _ children lacks.2.2⟩

theorem nodesOfAll_lacks (parent : Option Nat) (start : Nat) (elements : List Element)
    (lacks : AllLack c elements) : ∀ node ∈ nodesOfAll parent start elements, node.Lacks c := by
  cases elements with
  | nil => simp [nodesOfAll]
  | cons first rest =>
      rw [nodesOfAll]
      simp only [List.mem_append, or_imp, forall_and]
      exact ⟨nodesFrom_lacks _ _ first lacks.1, nodesOfAll_lacks _ _ rest lacks.2⟩

end

theorem field?_lacks {node : Node} {field : Text} (lacks : node.Lacks c)
    (isField : node.field? = some field) : c ∉ field := by
  unfold Node.field? at isField
  split at isField
  · cases isField
  · split at isField
    · exact attribute?_lacks lacks.1 isField
    · cases isField
      exact lacks.1.1

theorem fields_lacks {root : Element} (lacks : root.Lacks c) : ∀ field ∈ root.fields, c ∉ field := by
  intro field member
  rw [fields, List.mem_eraseDups, List.mem_filter, List.mem_filterMap] at member
  obtain ⟨⟨node, isNode, isField⟩, _⟩ := member
  exact field?_lacks (nodesFrom_lacks _ _ root lacks node (List.mem_of_mem_drop isNode)) isField

end Element

namespace Outline

theorem shownName_lacks {indent : Text} {tag : Tag} (free : c ∉ indent) (lacks : tag.Lacks c) :
    c ∉ shownName indent tag := by
  unfold shownName
  split
  · simp only [List.mem_flatMap, List.mem_append, not_exists, not_and, not_or]
    exact fun entry member => ⟨free, lacks.2 entry member⟩
  · split
    · exact List.not_mem_nil
    · simp only [List.mem_append, not_or]
      exact ⟨free, lacks.1⟩

theorem shownText_lacks (fresh : Fresh c) {text : Option Text} (lacks : ∀ shown ∈ text, c ∉ shown) :
    c ∉ shownText text := by
  have sign : c ∉ (" = " : Text) := fresh.literal (by decide)
  unfold shownText
  split
  · exact List.not_mem_nil
  · exact List.not_mem_nil
  · simp only [List.mem_append, not_or]
    exact ⟨sign, lacks _ rfl⟩

theorem indentation_lacks {current : Text} {tag : Tag} (free : c ∉ current) :
    c ∉ indentation current tag := by
  unfold indentation
  split
  · exact List.not_mem_nil
  · exact free

mutual

theorem element_lacks (fresh : Fresh c) {indent added : Text} (free : c ∉ indent)
    (freeAdded : c ∉ added) (root : Element) (lacks : root.Lacks c) :
    c ∉ element indent added root := by
  obtain ⟨tag, text, children⟩ := root
  have ends : c ∉ ("\n" : Text) := fresh.literal (by decide)
  have step : c ∉ ("  " : Text) := fresh.literal (by decide)
  have deeper : c ∉ indent ++ added := by simp [free, freeAdded]
  rw [element]
  simp only [List.mem_append, not_or]
  exact ⟨⟨⟨shownName_lacks free lacks.1, shownText_lacks fresh lacks.text⟩, ends⟩,
    elements_lacks fresh deeper step children lacks.2.2⟩

theorem elements_lacks (fresh : Fresh c) {indent added : Text} (free : c ∉ indent)
    (freeAdded : c ∉ added) (roots : List Element) (lacks : Element.AllLack c roots) :
    c ∉ elements indent added roots := by
  cases roots with
  | nil => exact List.not_mem_nil
  | cons first rest =>
      have ends : c ∉ ("\n" : Text) := fresh.literal (by decide)
      have next : c ∉ indentation added first.tag := indentation_lacks freeAdded
      rw [elements]
      split
      · exact elements_lacks fresh free freeAdded rest lacks.2
      · simp only [List.mem_append, not_or]
        refine ⟨⟨element_lacks fresh free next first lacks.1, ?_⟩,
          elements_lacks fresh free next rest lacks.2⟩
        split
        · exact ends
        · exact List.not_mem_nil

end

theorem squeezeFrom_lacks {text : Text} (lacks : c ∉ text) (ends : Nat) :
    c ∉ squeezeFrom ends text := by
  fun_induction squeezeFrom ends text <;> simp_all

end Outline

/-- The outline shows nothing but names and texts of the tree. -/
theorem Element.outline_lacks (fresh : Fresh c) {root : Element} (lacks : root.Lacks c) :
    c ∉ root.outline := by
  have ends : c ∉ ("\n\n" : Text) := fresh.literal (by decide)
  have step : c ∉ ("  " : Text) := fresh.literal (by decide)
  have shown := trim_lacks (Outline.squeezeFrom_lacks
    (Outline.elements_lacks fresh List.not_mem_nil step [root] ⟨lacks, trivial⟩) 0)
  unfold outline
  dsimp only
  split
  · exact List.not_mem_nil
  · simp only [List.mem_append, not_or]
    exact ⟨shown, ends⟩

end ManagementShell

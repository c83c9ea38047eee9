import ManagementShell.Proofs.Enumeration.Form

/-
This file shows that the text of an enumeration has one blank line for each instance, where instances
at the ends do not count if all that they show is white space.
-/

namespace ManagementShell

namespace Enumeration
open Text Outline

/-- The outline shows the element by its own name and its text on the same line. -/
def IsPlain (element : Element) : Prop :=
  element.tag.base ∉ wrappers ∧ element.tag.base ∉ leftOut ∧ element.tag.base ≠ selector ∧
    ∀ text ∈ element.text?, '\n' ∉ text

/-- The layers hold nothing but the next layer and what is left out, and the elements inside the
innermost one are plain. -/
def Enumerates : List (List Text) → Element → Prop
  | [], element => ∀ inner ∈ element.inOrder, IsPlain inner
  | names :: inner, element => element.tag.base ∈ names ∧ (∀ text ∈ element.text?, text = []) ∧
      ∀ child ∈ element.children, child.tag.base ∉ leftOut → Enumerates inner child

/-- There is something in the element besides white space: a name or a text. -/
def IsShown (element : Element) : Prop :=
  ∃ inner ∈ element.inOrder, Visible inner.tag.base ∨ ∃ text ∈ inner.text?, text ≠ []

instance (element : Element) : Decidable (IsPlain element) := inferInstanceAs (Decidable (_ ∧ _))

def decideEnumerates : (around : List (List Text)) → (element : Element) →
    Decidable (Enumerates around element)
  | [], element => inferInstanceAs (Decidable (∀ inner ∈ element.inOrder, IsPlain inner))
  | names :: inner, element =>
      haveI := decideEnumerates inner
      inferInstanceAs (Decidable (element.tag.base ∈ names ∧ (∀ text ∈ element.text?, text = []) ∧
        ∀ child ∈ element.children, child.tag.base ∉ leftOut → Enumerates inner child))

instance (around : List (List Text)) (element : Element) : Decidable (Enumerates around element) :=
  decideEnumerates around element

instance (element : Element) : Decidable (IsShown element) :=
  inferInstanceAs (Decidable (∃ inner ∈ element.inOrder,
    Visible inner.tag.base ∨ ∃ text ∈ inner.text?, text ≠ []))

def isUnseen (element : Element) : Bool := !decide (IsShown element)

/-- The instances from the first one that shows something to the last. -/
def shownInstances (root : Element) : List Element := crop isUnseen (instances layers root)

theorem isShown_mk {tag : Tag} {text : Text} {children : List Element} :
    IsShown (.mk tag text children) ↔ (Visible tag.base ∨
      ∃ shown ∈ (Element.mk tag text children).text?, shown ≠ []) ∨
        ∃ child ∈ children, IsShown child := by
  simp only [IsShown, Element.inOrder, Element.inOrderAll_eq, List.mem_cons, exists_eq_or_imp,
    List.mem_flatMap, Element.tag]
  refine or_congr_right ⟨?_, ?_⟩
  · rintro ⟨inner, ⟨child, isChild, isInner⟩, shown⟩
    exact ⟨child, isChild, inner, isInner, shown⟩
  · rintro ⟨child, isChild, inner, isInner, shown⟩
    exact ⟨inner, ⟨child, isChild, isInner⟩, shown⟩

/-- The line of an element: its name and its text after a margin. -/
def line (indent : Text) (tag : Tag) (text : Option Text) : Text :=
  indent ++ tag.base ++ shownText text

section

variable {indent : Text} {tag : Tag} {text : Option Text}

theorem visible_line (margin : indent.all isBlank = true) :
    Visible (line indent tag text) ↔ Visible tag.base ∨ ∃ shown ∈ text, shown ≠ [] := by
  have notVisible : ¬Visible indent := by
    rintro ⟨character, member, isVisible⟩
    rw [List.all_eq_true.mp margin character member] at isVisible
    cases isVisible
  have isText : Visible (shownText text) ↔ ∃ shown ∈ text, shown ≠ [] := by
    unfold shownText
    split
    · simp [Visible]
    · simp [Visible]
    · rename_i nonempty
      exact iff_of_true ⟨'=', List.mem_append_left _ (by decide), by decide⟩
        ⟨_, rfl, fun isEmpty => nonempty (isEmpty ▸ rfl)⟩
  rw [line, visible_append, visible_append, isText, or_assoc, or_iff_right notVisible]

theorem line_ne_nil (named : Xml.IsBase tag.base) : line indent tag text ≠ [] := by
  simp [line, named.ne_nil]

theorem line_single (margin : '\n' ∉ indent) (named : Xml.IsBase tag.base)
    (single : ∀ shown ∈ text, '\n' ∉ shown) : '\n' ∉ line indent tag text := by
  have noName : '\n' ∉ tag.base := fun member =>
    absurd (List.all_eq_true.mp named.characters _ member) (by decide)
  have noText : '\n' ∉ shownText text := by
    unfold shownText
    split
    · exact List.not_mem_nil
    · exact List.not_mem_nil
    · rw [List.mem_append, not_or]
      exact ⟨by decide, single _ rfl⟩
  simp only [line, List.mem_append, not_or]
  exact ⟨⟨margin, noName⟩, noText⟩

end

theorem element_ordinary {tag : Tag} {text : Text} {children : List Element}
    (ordinary : IsOrdinary (.mk tag text children)) (indent : Text) :
    element indent "  " (.mk tag text children) =
      line indent tag (Element.mk tag text children).text? ++
        '\n' :: elements (indent ++ "  ") "  " children := by
  have noWrapper : tag.base ∉ wrappers := ordinary.1
  have noSelector : tag.base ≠ selector := ordinary.2.2
  rw [element, shownName, if_neg noSelector, if_neg (by simpa using noWrapper), line,
    List.append_assoc _ "\n".toList]
  rfl

/-- Spaces in front of a line. -/
def IsMargin (indent : Text) : Prop := ∀ character ∈ indent, character = ' '

namespace IsMargin

variable {indent : Text}

theorem deeper (margin : IsMargin indent) : IsMargin (indent ++ "  ") := by
  refine List.forall_mem_append.mpr ⟨margin, ?_⟩
  simp

theorem areBlank (margin : IsMargin indent) : indent.all isBlank = true :=
  List.all_eq_true.mpr fun character member => margin character member ▸ rfl

theorem noFeed (margin : IsMargin indent) : '\n' ∉ indent := fun member =>
  absurd (margin _ member) (by decide)

end IsMargin

section

variable (holds : Text → Prop)
  (joins : ∀ {first second}, holds first → holds second → holds (first ++ '\n' :: second))
include joins

mutual

/-- Inside an instance everything is indented, so the text is made of the lines of the elements, and
no line feed sets any of them apart. -/
theorem element_lines {indent : Text} (margin : IsMargin indent) (root : Element)
    (ordinary : ∀ inner ∈ root.inOrder, IsOrdinary inner)
    (each : ∀ inner ∈ root.inOrder, ∀ indent, IsMargin indent →
      holds (line indent inner.tag inner.text?)) :
    ∃ text, element indent "  " root = text ++ ['\n'] ∧ holds text ∧ (Visible text ↔ IsShown root) := by
  obtain ⟨tag, text, children⟩ := root
  rw [Element.forall_inOrder_mk] at ordinary each
  have first : holds (line indent tag (Element.mk tag text children).text?) := each.1 indent margin
  rw [element_ordinary ordinary.1, isShown_mk, ← visible_line margin.areBlank]
  cases children with
  | nil => exact ⟨_, by rw [elements], first, by simp⟩
  | cons child rest =>
      obtain ⟨later, isText, isLater, visible⟩ := elements_lines margin.deeper
        (by simp) (child :: rest) (List.cons_ne_nil _ _) ordinary.2 each.2
      refine ⟨_, by rw [isText, ← List.cons_append, ← List.append_assoc], joins first isLater, ?_⟩
      rw [visible_append, visible_lineFeed_cons, visible]

theorem elements_lines {indent : Text} (margin : IsMargin indent) (indented : indent ≠ [])
    (roots : List Element) (nonempty : roots ≠ [])
    (ordinary : ∀ root ∈ roots, ∀ inner ∈ root.inOrder, IsOrdinary inner)
    (each : ∀ root ∈ roots, ∀ inner ∈ root.inOrder, ∀ indent, IsMargin indent →
      holds (line indent inner.tag inner.text?)) :
    ∃ text, elements indent "  " roots = text ++ ['\n'] ∧ holds text ∧
      (Visible text ↔ ∃ root ∈ roots, IsShown root) := by
  cases roots with
  | nil => exact absurd rfl nonempty
  | cons first rest =>
      rw [List.forall_mem_cons] at ordinary each
      have isOrdinary := ordinary_self ordinary.1
      obtain ⟨text, isText, holdsText, visible⟩ := element_lines margin first ordinary.1 each.1
      rw [elements, if_neg (by simpa using isOrdinary.2.1), indentation_ordinary _ isOrdinary]
      dsimp only
      rw [if_neg fun none => indented none.1, show ("" : Text) = [] from rfl, List.append_nil, isText]
      cases rest with
      | nil => exact ⟨text, by rw [elements, List.append_nil], holdsText, by simpa using visible⟩
      | cons second rest =>
          obtain ⟨others, isRest, holdOthers, visibleRest⟩ := elements_lines margin indented
            (second :: rest) (List.cons_ne_nil _ _) ordinary.2 each.2
          refine ⟨_, by rw [isRest]; simp, joins holdsText holdOthers, ?_⟩
          rw [visible_append, visible_lineFeed_cons, visible, visibleRest]
          simp only [List.mem_cons, exists_eq_or_imp]

end

end

theorem IsPlain.ordinary {element : Element} (plain : IsPlain element) : IsOrdinary element :=
  ⟨plain.1, plain.2.1, plain.2.2.1⟩

/-- The form leaves the texts of the instances open. -/
theorem Enumerates.hasForm {around : List (List Text)} {root : Element}
    (shape : Enumerates around root) : HasForm around root := by
  induction around generalizing root with
  | nil => exact fun inner isInner => (shape inner isInner).ordinary
  | cons names around inductionHypothesis =>
      obtain ⟨isLayer, noText, each⟩ := shape
      exact ⟨isLayer, noText, fun child isChild isKept =>
        inductionHypothesis (each child isChild isKept)⟩

theorem Enumerates.instances {around : List (List Text)} {root : Element}
    (shape : Enumerates around root) :
    ∀ entry ∈ instances around root, ∀ inner ∈ entry.inOrder, IsPlain inner :=
  forall_instances (fun shape => shape.2.2) shape

/-- The text has a paragraph for each element, and the same of both are to be seen. -/
def Paragraphs (entries : List Element) (text : Text) : Prop :=
  ∃ paragraphs, entries.map isUnseen = paragraphs.map isHidden ∧ HasParagraphs paragraphs text

theorem paragraphs_composed : IsComposed Paragraphs where
  none := ⟨[], rfl, .none⟩
  feed := fun ⟨paragraphs, same, parts⟩ => ⟨paragraphs, same, .feed parts⟩
  join := fun ⟨first, sameFirst, hasFirst⟩ ⟨second, sameSecond, hasSecond⟩ =>
    ⟨first ++ second, by rw [List.map_append, List.map_append, sameFirst, sameSecond],
      hasFirst.join hasSecond⟩

theorem paragraphs_instance {entry : Element} (plain : ∀ inner ∈ entry.inOrder, IsPlain inner)
    (named : entry.AllNamed) : Paragraphs [entry] (element [] "  " entry) := by
  obtain ⟨paragraph, isText, isParagraph, visible⟩ := element_lines IsParagraph IsParagraph.append
    (List.forall_mem_nil _) entry (fun inner isInner => (plain inner isInner).ordinary)
    fun inner isInner indent margin => .line (line_ne_nil (named inner isInner))
      (line_single margin.noFeed (named inner isInner) (plain inner isInner).2.2.2)
  refine ⟨[paragraph], ?_, isText ▸ .last isParagraph⟩
  rw [List.map_singleton, List.map_singleton, isUnseen, isHidden, decide_eq_decide.mpr visible.symm]

theorem paragraphs_layers {around : List (List Text)}
    (areWrappers : ∀ names ∈ around, ∀ name ∈ names, name ∈ wrappers) {root : Element}
    (shape : Enumerates around root) (named : root.AllNamed) :
    Paragraphs (instances around root) (element [] (indentationIn around) root) :=
  paragraphs_composed.layers areWrappers shape.hasForm fun entry isEntry =>
    paragraphs_instance (shape.instances entry isEntry) (forall_inOrder_instances named entry isEntry)

/-- In the text of an enumeration a blank line ends each instance from the first to the last that
shows something, and the text is empty if there are none. These are all of the instances if the
first and the last one show something. -/
theorem outline_counts {document : Text} {root : Element} (parsed : Xml.parse? document = some root)
    (shape : Enumerates layers root) :
    root.outline.occurrences "\n\n" = (shownInstances root).length ∧
      (root.outline = [] ↔ shownInstances root = []) ∧
      ((∀ first ∈ (instances layers root).head?, IsShown first) →
        (∀ last ∈ (instances layers root).getLast?, IsShown last) →
          shownInstances root = instances layers root) := by
  have isRoot : root.tag.base = "Results" := List.mem_singleton.mp shape.1
  have notLeftOut : root.tag.base ∉ leftOut := by
    rw [isRoot]
    decide
  have isWrapper : root.tag.base ∈ wrappers := by
    rw [isRoot]
    decide
  obtain ⟨paragraphs, same, parts⟩ :=
    paragraphs_layers (by decide) shape (Xml.parse?_allNamed parsed)
  have outlined : elements [] "  " [root] = element [] (indentationIn layers) root := by
    rw [elements, if_neg (by simpa using notLeftOut), indentation_wrapper _ isWrapper]
    simp [elements, indentationIn, layers]
  have sameLength : (shownInstances root).length = (crop isHidden paragraphs).length := by
    rw [shownInstances, length_crop, length_crop isHidden, same]
  have bothEmpty : shownInstances root = [] ↔ crop isHidden paragraphs = [] := by
    rw [← List.length_eq_zero_iff, sameLength, List.length_eq_zero_iff]
  obtain ⟨isEmpty, isCount⟩ := parts.trim_squeezed
  rw [← and_assoc]
  refine ⟨?_, fun start stop => crop_eq_self (fun first isFirst => ?_) fun last isLast => ?_⟩
  · rw [Element.outline, outlined, sameLength, bothEmpty]
    split
    · rename_i nothing
      rw [isEmpty.mp nothing]
      exact ⟨rfl, iff_of_true rfl rfl⟩
    · rename_i something
      exact ⟨isCount (mt isEmpty.mpr something),
        iff_of_false (by simp) (mt isEmpty.mpr something)⟩
  · simpa [isUnseen] using start first isFirst
  · simpa [isUnseen] using stop last isLast

/-- Two answers of which the second one has an instance that is only white space at its end. -/
def answers : Text :=
  "<Results><Envelope><Header/><Body><EnumerateResponse><Items><View><Name>one</Name></View></Items>"
    ++ "</EnumerateResponse></Body></Envelope><Envelope><Body><PullResponse><Items><View/><\u1680/>"
    ++ "</Items><EndOfSequence/></PullResponse></Body></Envelope></Results>"

theorem outline_counts_answers :
    ∃ root, (Xml.parse? answers = some root ∧ Enumerates layers root ∧
        (instances layers root).length = 3 ∧ (shownInstances root).length = 2) ∧
      root.outline.occurrences "\n\n" = 2 := by
  have has : ∃ root ∈ Xml.parse? answers, Enumerates layers root ∧
      (instances layers root).length = 3 ∧ (shownInstances root).length = 2 := by decide +kernel
  obtain ⟨root, parsed, shape, isCount, isShown⟩ := has
  exact ⟨root, ⟨parsed, shape, isCount, isShown⟩, (outline_counts parsed shape).1.trans isShown⟩

/-- The ogham space mark is a name by the rules of documents, but it is white space, which is cut off
at the ends of the text. -/
theorem outline_miscounts :
    ∃ root ∈ Xml.parse? ("<Results><Envelope><Body><PullResponse><Items><\u1680/></Items>"
        ++ "</PullResponse></Body></Envelope></Results>"),
      Enumerates layers root ∧ (instances layers root).length = 1 ∧
        root.outline.occurrences "\n\n" = 0 := by
  decide +kernel

end Enumeration

end ManagementShell

import ManagementShell.Proofs.Enumeration.Counting
import ManagementShell.Proofs.Normalisation
import ManagementShell.Proofs.Text.Block
import Mathlib.Algebra.GroupWithZero.Nat

/-
This file shows that the text of an enumeration has as many blank lines as those of its instances
together, whatever their texts are, if each instance shows something besides white space.
-/

namespace ManagementShell

namespace Enumeration
open Text Outline

/-- The number of blank lines in the text of an element. -/
def blankLines (root : Element) : Nat := root.outline.occurrences "\n\n"

/-- Only the hidden paragraphs at the ends have no blank line. -/
theorem blankLines_eq {root : Element} {paragraphs : List Text}
    (parts : HasParagraphs paragraphs (elements [] "  " [root])) :
    blankLines root = (crop isHidden paragraphs).length := by
  obtain ⟨isEmpty, isCount⟩ := parts.trim_squeezed
  rw [blankLines, Element.outline]
  split
  · rename_i nothing
    rw [isEmpty.mp nothing]
    rfl
  · rename_i something
    exact isCount (mt isEmpty.mpr something)

theorem crop_visible {paragraphs : List Text} (head : ∀ first ∈ paragraphs.head?, Visible first)
    (last : ∀ last ∈ paragraphs.getLast?, Visible last) : crop isHidden paragraphs = paragraphs :=
  crop_eq_self (fun first isFirst => by simpa [isHidden] using head first isFirst)
    fun other isLast => by simpa [isHidden] using last other isLast

/-- A text may go over several lines, but something stands before it on its first line. -/
theorem line_block {indent : Text} {tag : Tag} {text : Option Text} (margin : IsMargin indent)
    (named : Xml.IsBase tag.base) (trimmed : ∀ shown ∈ text, Trimmed shown) :
    IsBlock (line indent tag text) := by
  have nonempty : line indent tag none ≠ [] := line_ne_nil named
  have nameSingle : '\n' ∉ line indent tag none :=
    line_single margin.noFeed named fun _ none => by cases none
  unfold line shownText at nonempty nameSingle ⊢
  split
  · exact .line nonempty nameSingle
  · exact .line nonempty nameSingle
  · rename_i shown nonempty
    rw [← List.append_assoc]
    refine .entry ?_ ⟨'=', by simp, by decide⟩ (fun isEmpty => nonempty isEmpty) (trimmed _ rfl)
    simpa using nameSingle

/-- The text has as many paragraphs as there are blank lines in the texts of the elements, and its
first and last one are to be seen. -/
def IsSum (entries : List Element) (text : Text) : Prop :=
  ∃ paragraphs, HasParagraphs paragraphs text ∧ paragraphs.length = (entries.map blankLines).sum ∧
    (∀ first ∈ paragraphs.head?, Visible first) ∧ ∀ last ∈ paragraphs.getLast?, Visible last

theorem isSum_composed : IsComposed IsSum where
  none := ⟨[], .none, rfl, by simp, by simp⟩
  feed := fun ⟨paragraphs, parts, rest⟩ => ⟨paragraphs, .feed parts, rest⟩
  join := by
    rintro entries more text rest ⟨first, hasFirst, countFirst, headFirst, lastFirst⟩
      ⟨second, hasSecond, countSecond, headSecond, lastSecond⟩
    refine ⟨first ++ second, hasFirst.join hasSecond, ?_, fun head isHead => ?_, fun last isLast => ?_⟩
    · rw [List.length_append, countFirst, countSecond, List.map_append, List.sum_append]
    · rw [List.head?_append, Option.mem_def, Option.or_eq_some_iff] at isHead
      exact isHead.elim (headFirst head) fun isHead => headSecond head isHead.2
    · rw [List.getLast?_append, Option.mem_def, Option.or_eq_some_iff] at isLast
      exact isLast.elim (lastSecond last) fun isLast => lastFirst last isLast.2

theorem isSum_instance {entry : Element} (ordinary : ∀ inner ∈ entry.inOrder, IsOrdinary inner)
    (named : entry.AllNamed) (shown : IsShown entry)
    (trimmed : ∀ inner ∈ entry.inOrder, ∀ text ∈ inner.text?, Trimmed text) :
    IsSum [entry] (element [] "  " entry) := by
  obtain ⟨text, isText, isBlock, visible⟩ := element_lines IsBlock IsBlock.join
    (List.forall_mem_nil _) entry ordinary fun inner isInner indent margin =>
      line_block margin (named inner isInner) (trimmed inner isInner)
  obtain ⟨paragraphs, parts, head, last⟩ := isBlock.exists_paragraphs (visible.mpr shown)
  have isOrdinary := ordinary_self ordinary
  have alone : elements [] "  " [entry] = element [] "  " entry := by
    rw [elements_singleton isOrdinary.2.1, indentation_ordinary _ isOrdinary]
  rw [← isText, ← alone] at parts
  refine ⟨paragraphs, alone ▸ parts, ?_, head, last⟩
  rw [List.map_singleton, List.sum_singleton, blankLines_eq parts, crop_visible head last]

theorem outlined {root : Element} (form : HasForm layers root) :
    elements [] "  " [root] = element [] (indentationIn layers) root := by
  have isRoot : root.tag.base = "Results" := List.mem_singleton.mp form.1
  rw [elements_singleton (by rw [isRoot]; decide), indentation_wrapper _ (by rw [isRoot]; decide)]
  rfl

/-- A blank line ends each paragraph of each instance. -/
theorem blankLines_sum {document : Text} {root : Element} (parsed : Xml.parse? document = some root)
    (form : HasForm layers root) (shown : ∀ entry ∈ instances layers root, IsShown entry) :
    blankLines root = ((instances layers root).map blankLines).sum := by
  -- Nothing is cut off at the ends, where the first and the last instance show something.
  obtain ⟨paragraphs, parts, isSum, head, last⟩ := isSum_composed.layers (by decide) form
    fun entry isEntry => isSum_instance (form.instances entry isEntry)
      (forall_inOrder_instances (Xml.parse?_allNamed parsed) entry isEntry) (shown entry isEntry)
      (forall_inOrder_instances (Xml.parse?_trimmed parsed) entry isEntry)
  rw [← outlined form] at parts
  rw [blankLines_eq parts, crop_visible head last, isSum]

/-- An instance whose texts are on single lines has one blank line. -/
theorem blankLines_plain {entry : Element} (plain : ∀ inner ∈ entry.inOrder, IsPlain inner)
    (named : entry.AllNamed) (shown : IsShown entry) : blankLines entry = 1 := by
  obtain ⟨paragraphs, same, parts⟩ := paragraphs_instance plain named
  have isPlain := (ordinary_self fun inner isInner => (plain inner isInner).ordinary)
  rw [← indentation_ordinary "  " isPlain, ← elements_singleton isPlain.2.1] at parts
  obtain ⟨paragraph, rfl⟩ : ∃ paragraph, paragraphs = [paragraph] :=
    List.length_eq_one_iff.mp (by simpa using (congrArg List.length same).symm)
  have visible : isUnseen entry = isHidden paragraph := by simpa using same
  rw [blankLines_eq parts, crop_visible] <;> simp_all [isUnseen, isHidden]

theorem blankLines_enumerates {document : Text} {root : Element}
    (parsed : Xml.parse? document = some root) (shape : Enumerates layers root)
    (shown : ∀ entry ∈ instances layers root, IsShown entry) :
    blankLines root = (instances layers root).length := by
  have each : ∀ entry ∈ instances layers root, blankLines entry = 1 := fun entry isEntry =>
    blankLines_plain (shape.instances entry isEntry)
      (forall_inOrder_instances (Xml.parse?_allNamed parsed) entry isEntry) (shown entry isEntry)
  rw [blankLines_sum parsed shape.hasForm shown, List.map_congr_left each]
  simp

end Enumeration

namespace Response

variable {raw : Text} {root : Element} (isTree : (ofOutput raw).tree = some root)
include isTree

theorem parsed_of_tree : Xml.parse? (normalise raw) = some root := tree_ofOutput raw ▸ isTree

theorem parts_ofOutput : (ofOutput raw).parts = Enumeration.blankLines root := by
  rw [parts, text_ofOutput isTree, Enumeration.blankLines]

end Response

end ManagementShell

import ManagementShell.Proofs.Element
import ManagementShell.Response

/-
This file shows that what is shown of a response has no character that the output of the call and
the tree that it was read as both lack.
-/

namespace ManagementShell
open Text

variable {c : Char}

namespace Xml

theorem margin_lacks (fresh : Fresh c) (depth : Nat) : c ∉ margin depth := by
  have blank : c ≠ ' ' := fresh.ne (by decide)
  simp [margin, blank]

theorem writeTag_lacks (fresh : Fresh c) (cursor : Cursor) {text tag : Text} (rest : Text)
    (lacks : c ∉ text) (lacksTag : c ∉ tag) : c ∉ (writeTag cursor text tag rest).2 := by
  have ends : c ∉ ("\n" : Text) := fresh.literal (by decide)
  have margins := margin_lacks fresh
  unfold writeTag
  dsimp only
  split
  · simp only [List.mem_append, not_or]
    refine ⟨⟨⟨lacks, ?_⟩, lacksTag⟩, ends⟩
    split
    · exact margins _
    · exact List.not_mem_nil
  · have written : c ∉ text ++ margin cursor.depth ++ tag := by
      simp only [List.mem_append, not_or]
      exact ⟨⟨lacks, margins _⟩, lacksTag⟩
    have ended : c ∉ text ++ margin cursor.depth ++ tag ++ "\n" := by
      rw [List.mem_append, not_or]
      exact ⟨written, ends⟩
    split
    · exact ended
    · split
      · exact ended
      · exact written

/-- The induction is on the document; the text and the tag are what was read of it before. -/
theorem indentedFrom_lacks (fresh : Fresh c) (cursor : Cursor) {text document : Text}
    {tag : Option Text} (lacks : c ∉ text) (lacksTag : ∀ begun ∈ tag, c ∉ begun)
    (lacksDocument : c ∉ document) : c ∉ indentedFrom cursor text tag document := by
  induction document generalizing cursor text tag with
  | nil => cases tag <;> exact List.not_mem_nil
  | cons character rest inductionHypothesis =>
      rw [List.mem_cons, not_or] at lacksDocument
      have opens : c ∉ ("<" : Text) := fresh.literal (by decide)
      cases tag with
      | none =>
          rw [indentedFrom]
          split
          · exact inductionHypothesis _ lacks (by simpa using opens) lacksDocument.2
          · exact inductionHypothesis _ (by simp [lacks, lacksDocument.1]) lacksTag lacksDocument.2
      | some begun =>
          have lacksBegun := lacksTag begun rfl
          rw [indentedFrom]
          split
          · have closed : c ∉ begun ++ (">" : Text) := by
              rw [List.mem_append, not_or]
              exact ⟨lacksBegun, fresh.literal (by decide)⟩
            dsimp only
            rw [List.mem_append, not_or]
            exact ⟨writeTag_lacks fresh _ _ (trim_lacks lacks) closed,
              inductionHypothesis _ List.not_mem_nil (by simp) lacksDocument.2⟩
          · exact inductionHypothesis _ lacks (by simp [lacksBegun, lacksDocument.1]) lacksDocument.2

theorem indented_lacks (fresh : Fresh c) {document : Text} (lacks : c ∉ document) :
    c ∉ indented document :=
  indentedFrom_lacks fresh _ List.not_mem_nil (by simp) lacks

end Xml

namespace Response

/-- Neither a text nor the tree of the response has the character. -/
structure Lacks (c : Char) (response : Response) : Prop where
  xml : c ∉ response.xml
  text : c ∉ response.text
  tree : ∀ root ∈ response.tree, root.Lacks c

theorem empty_lacks : empty.Lacks c where
  xml := List.not_mem_nil
  text := List.not_mem_nil
  tree := by simp [empty]

theorem withoutPrologues_lacks {raw : Text} (lacks : c ∉ raw) (skip : Nat) :
    c ∉ (withoutPrologues skip raw).2 := by
  induction raw generalizing skip with
  | nil => cases skip <;> exact List.not_mem_nil
  | cons character rest inductionHypothesis =>
      rw [List.mem_cons, not_or] at lacks
      cases skip with
      | succ skip =>
          rw [withoutPrologues]
          exact inductionHypothesis lacks.2 skip
      | zero =>
          rw [withoutPrologues]
          split
          · exact inductionHypothesis lacks.2 _
          · simp [lacks.1, inductionHypothesis lacks.2 0]

theorem normalise_lacks (fresh : Fresh c) {raw : Text} (lacks : c ∉ raw) : c ∉ normalise raw := by
  have document : c ∉ if (withoutPrologues 0 raw).1 then
      "<Results>" ++ (withoutPrologues 0 raw).2 ++ "</Results>" else raw := by
    split
    · simp only [List.mem_append, not_or]
      exact ⟨⟨fresh.literal (by decide), withoutPrologues_lacks lacks 0⟩,
        fresh.literal (by decide)⟩
    · exact lacks
  unfold normalise
  simp only [List.mem_flatMap, not_exists, not_and]
  exact fun line member => trim_lacks (lines_lacks document line member)

/-- The output of the program, and what it is read as, do not have the character. -/
def Discreet (c : Char) (raw : Text) : Prop :=
  c ∉ raw ∧ ∀ root ∈ Xml.parse? (normalise raw), root.Lacks c

instance (raw : Text) : Decidable (Discreet c raw) :=
  inferInstanceAs (Decidable (c ∉ raw ∧ ∀ root ∈ Xml.parse? (normalise raw), root.Lacks c))

theorem ofOutput_lacks (fresh : Fresh c) {raw : Text} (discreet : Discreet c raw) :
    (ofOutput raw).Lacks c := by
  have xml := normalise_lacks fresh discreet.1
  have tree := discreet.2
  unfold ofOutput
  dsimp only
  split
  · rename_i root isRoot
    have lacksRoot := tree root isRoot
    exact ⟨xml, Element.outline_lacks fresh lacksRoot, by simpa using lacksRoot⟩
  · exact ⟨xml, discreet.1, by simp⟩

/-- In every format, a response shows nothing but its texts. -/
theorem shown_lacks (fresh : Fresh c) {response : Response} (lacks : response.Lacks c)
    (format : Text) : c ∉ response.shown format := by
  have ends : c ∉ ("\n" : Text) := fresh.literal (by decide)
  unfold shown
  split
  · rw [List.mem_append, not_or]
    exact ⟨lacks.xml, ends⟩
  · split
    · exact Xml.indented_lacks fresh lacks.xml
    · exact lacks.text

end Response

end ManagementShell

import ManagementShell.FileTree
import ManagementShell.Proofs.Outcome
import ManagementShell.Proofs.Text.Utf8

/-
This file shows that a character comes into files only with the texts that are written to them.
-/

namespace ManagementShell.FileTree
open Text

variable {c : Char} {tree : FileTree}

/-- No file that can be read as a text has the character. -/
def Lacks (c : Char) (tree : FileTree) : Prop :=
  ∀ file ∈ tree.files, ∀ text ∈ decode? file.2, c ∉ text

theorem Lacks.contents? (lacks : tree.Lacks c) {location : Location} {contents : Bytes}
    (isContents : tree.contents? location = some contents) : ∀ text ∈ decode? contents, c ∉ text := by
  rw [FileTree.contents?, List.lookup_eq_some_iff] at isContents
  obtain ⟨before, after, isFiles, _⟩ := isContents
  exact lacks (location, contents) (by simp [isFiles])

theorem Lacks.entry? (lacks : tree.Lacks c) {location : Location} {contents : Bytes}
    (isEntry : tree.entry? location = some (.file contents)) :
    ∀ text ∈ decode? contents, c ∉ text := by
  unfold FileTree.entry? at isEntry
  split at isEntry
  · rename_i isContents
    cases isEntry
    exact lacks.contents? isContents
  · split at isEntry
    · cases isEntry
    · cases isEntry

theorem Lacks.readBytes (lacks : tree.Lacks c) {path : Text} {contents : Bytes}
    (isContents : tree.readBytes path = .ok contents) : ∀ text ∈ decode? contents, c ∉ text := by
  unfold FileTree.readBytes find at isContents
  split at isContents
  · cases isContents
  · cases isContents
  · rename_i isFound
    cases isContents
    split at isFound
    · cases isFound
    · split at isFound
      · rename_i isEntry
        cases isFound
        exact lacks.entry? isEntry
      · cases isFound

theorem Lacks.readText (lacks : tree.Lacks c) {path text : Text}
    (isText : tree.readText path = .ok text) : c ∉ text := by
  unfold FileTree.readText at isText
  split at isText
  · cases isText
  · rename_i contents isContents
    split at isText
    · rename_i isDecoded
      cases isText
      exact lacks.readBytes isContents text isDecoded
    · cases isText

theorem store_lacks (lacks : tree.Lacks c) (location : Location) {contents : Bytes}
    (free : ∀ text ∈ decode? contents, c ∉ text) : (tree.store location contents).Lacks c := by
  simp only [Lacks, store, List.mem_cons, forall_eq_or_imp]
  exact ⟨free, fun file member => lacks file (List.mem_filter.mp member).1⟩

theorem empty_lacks : ∀ text ∈ decode? [], c ∉ text := by
  rintro _ ⟨⟩
  exact List.not_mem_nil

theorem openForWriting_lacks (lacks : tree.Lacks c) {path : Text} {keep : Bool}
    {opened : Location × FileTree} (isOpened : tree.openForWriting path keep = .ok opened) :
    opened.2.Lacks c := by
  unfold openForWriting at isOpened
  dsimp only at isOpened
  split at isOpened
  · cases isOpened
  · split at isOpened
    · cases isOpened
    · split at isOpened
      · cases isOpened
      · rename_i contents isEntry
        cases isOpened
        refine store_lacks lacks _ ?_
        split
        · exact lacks.entry? isEntry
        · exact empty_lacks
      · cases isOpened
        exact store_lacks lacks _ empty_lacks

/-- What is added to a file is read back behind what it held. -/
theorem append_lacks (lacks : tree.Lacks c) (location : Location) {text : Text} (free : c ∉ text) :
    (tree.append location (encode text)).Lacks c := by
  refine store_lacks lacks _ fun all isAll => ?_
  rw [decode?_append_encode] at isAll
  obtain ⟨before, isBefore, rfl⟩ := Option.map_eq_some_iff.mp isAll
  rw [List.mem_append, not_or]
  refine ⟨?_, free⟩
  cases isContents : tree.contents? location with
  | none =>
      rw [isContents] at isBefore
      exact empty_lacks before isBefore
  | some contents =>
      rw [isContents] at isBefore
      exact lacks.contents? isContents before isBefore

end ManagementShell.FileTree

import ManagementShell.Host.Expansion
import Mathlib.Data.List.Chain
import Mathlib.Data.List.Nodup
import Mathlib.Data.List.Perm.Subperm
import Mathlib.Logic.Relation

/-
This file shows that the expansion of a host list comes to an end exactly if it reaches no host file
that leads back to itself.
-/

namespace ManagementShell
open Text Relation

namespace FileTree

variable {tree : FileTree} {path : Text} {location : Location}

/-- The location of the file that a path names. -/
def fileAt? (tree : FileTree) (path : Text) : Option Location :=
  match tree.locate path with
  | .ok location => if (tree.contents? location).isSome then some location else none
  | .error _ => none

theorem fileAt?_eq_some : tree.fileAt? path = some location ↔
    tree.locate path = .ok location ∧ (tree.contents? location).isSome = true := by
  unfold fileAt?
  split
  · rename_i isLocated
    rw [isLocated, Option.ite_none_right_eq_some, Option.some.injEq, Except.ok.injEq]
    exact ⟨fun ⟨isFile, same⟩ => ⟨same, same ▸ isFile⟩, fun ⟨same, isFile⟩ => ⟨same ▸ isFile, same⟩⟩
  · rename_i isLocated
    simp [isLocated]

theorem isFile_eq (tree : FileTree) (path : Text) :
    tree.isFile path = (tree.fileAt? path).isSome := by
  unfold isFile readBytes find fileAt?
  cases tree.locate path with
  | error fault => rfl
  | ok location =>
      unfold entry?
      cases isContents : tree.contents? location with
      | some contents => simp [isContents, Except.toBool]
      | none => by_cases isDirectory : tree.isDirectoryAt location <;>
          simp [isContents, isDirectory, Except.toBool]

/-- The lines of a file; a file that is not a text has none. -/
def linesAt (tree : FileTree) (location : Location) : List Text :=
  match (tree.contents? location).bind decode? with
  | some text => text.lines
  | none => []

theorem readText_of_fileAt? (isFile : tree.fileAt? path = some location) :
    (∃ text, tree.readText path = .ok text ∧ tree.linesAt location = text.lines) ∨
      ∃ fault, tree.readText path = .error fault ∧ tree.linesAt location = [] := by
  obtain ⟨isLocated, isContents⟩ := fileAt?_eq_some.mp isFile
  obtain ⟨contents, isContents⟩ := Option.isSome_iff_exists.mp isContents
  have isRead : tree.readBytes path = .ok contents := by
    simp [readBytes, find, isLocated, entry?, isContents]
  unfold readText linesAt
  rw [isRead, isContents, Option.bind_some]
  cases isText : decode? contents with
  | some text => exact .inl ⟨text, by simp only [isText], rfl⟩
  | none => exact .inr ⟨.notText, by simp only [isText], rfl⟩

end FileTree

namespace Host

/-- The expansion with a bound on how deeply host files are nested. -/
def expandWithin (tree : FileTree) (depth : Nat) (entries : List Text) : Option Found :=
  expandEntries tree (expandFile tree depth) [] entries .empty

/-- The location of the host file that a line names. -/
def named? (tree : FileTree) (line : Text) : Option Location :=
  let entry := trim line
  if entry = [] ∨ entry.head? = some '#' then none else tree.fileAt? entry

/-- A line of the outer file names the inner one. -/
def Names (tree : FileTree) (outer inner : Location) : Prop :=
  ∃ line ∈ tree.linesAt outer, named? tree line = some inner

/-- An entry of the list, or a line of a file to which the list leads, names the file. -/
def LeadsTo (tree : FileTree) (entries : List Text) (location : Location) : Prop :=
  ∃ entry ∈ entries, ∃ first ∈ named? tree entry, ReflTransGen (Names tree) first location

/-- The file leads to a file that leads back to itself. -/
def Loops (tree : FileTree) (location : Location) : Prop :=
  ∃ again, ReflTransGen (Names tree) location again ∧ TransGen (Names tree) again again

/-- There is a way of this many steps from the file to others. -/
def Nests (tree : FileTree) : Nat → Location → Prop
  | 0, _ => True
  | depth + 1, location => ∃ inner, Names tree location inner ∧ Nests tree depth inner

variable {tree : FileTree} {location : Location}

section

variable {ofFile : Text → Found → Option Found} {origin : Text} {lines : List Text}

/-- The entries have no expansion exactly if one of them names a file that has none. -/
theorem expandEntries_eq_none {blocked : Location → Prop}
    (ofFile_eq_none : ∀ path location found, tree.fileAt? path = some location →
      (ofFile path found = none ↔ blocked location)) {found : Found} :
    expandEntries tree ofFile origin lines found = none ↔
      ∃ line ∈ lines, ∃ location ∈ named? tree line, blocked location := by
  induction lines generalizing found with
  | nil => simp [expandEntries]
  | cons line rest inductionHypothesis =>
      rw [List.exists_mem_cons_iff]
      have skips (noFile : named? tree line = none) (more : Found) :
          expandEntries tree ofFile origin rest more = none ↔
            (∃ location ∈ named? tree line, blocked location) ∨
              ∃ line ∈ rest, ∃ location ∈ named? tree line, blocked location := by
        simp [noFile, inductionHypothesis]
      unfold expandEntries
      dsimp only
      split
      · rename_i isSkipped
        exact skips (if_pos isSkipped) found
      rename_i counts
      have named : named? tree line = tree.fileAt? (trim line) := if_neg counts
      rw [FileTree.isFile_eq]
      cases isFile : tree.fileAt? (trim line) with
      | none =>
          rw [isFile] at named
          simp only [Option.isSome_none, Bool.false_eq_true, if_false]
          split <;> exact skips named _
      | some location =>
          rw [isFile] at named
          have isBlocked := ofFile_eq_none _ location found isFile
          simp only [Option.isSome_some, if_true, named, Option.mem_some_iff, exists_eq_left']
          split
          · rename_i more isMore
            rw [inductionHypothesis]
            have free : ¬blocked location := fun isStuck => nomatch isMore.symm.trans (isBlocked.mpr isStuck)
            simp [free]
          · rename_i isNone
            simp [isBlocked.mp isNone]

/-- What the entries give does not change if more files can be expanded. -/
theorem expandEntries_mono {ofFileToo : Text → Found → Option Found}
    (mono : ∀ path found more, ofFile path found = some more → ofFileToo path found = some more)
    {found more : Found} (expanded : expandEntries tree ofFile origin lines found = some more) :
    expandEntries tree ofFileToo origin lines found = some more := by
  induction lines generalizing found with
  | nil => exact expanded
  | cons line rest inductionHypothesis =>
      unfold expandEntries at expanded ⊢
      dsimp only at expanded ⊢
      split at expanded
      · rename_i isSkipped
        rw [if_pos isSkipped]
        exact inductionHypothesis expanded
      rename_i counts
      rw [if_neg counts]
      split at expanded
      · rename_i isFile
        rw [if_pos isFile]
        split at expanded
        · rename_i given isGiven
          rw [mono _ _ _ isGiven]
          exact inductionHypothesis expanded
        · cases expanded
      · rename_i noFile
        rw [if_neg noFile]
        split at expanded <;> exact inductionHypothesis expanded

end

theorem expandFile_eq_none (depth : Nat) {path : Text} (isFile : tree.fileAt? path = some location)
    (found : Found) : expandFile tree depth path found = none ↔ Nests tree depth location := by
  induction depth generalizing path location found with
  | zero => simp [expandFile, Nests]
  | succ depth inductionHypothesis =>
      have stuck : (∃ line ∈ tree.linesAt location, ∃ inner ∈ named? tree line, Nests tree depth inner) ↔
          Nests tree (depth + 1) location := by
        constructor
        · rintro ⟨line, isLine, inner, isNamed, nests⟩
          exact ⟨inner, ⟨line, isLine, isNamed⟩, nests⟩
        · rintro ⟨inner, ⟨line, isLine, isNamed⟩, nests⟩
          exact ⟨line, isLine, inner, isNamed, nests⟩
      rw [← stuck]
      unfold expandFile
      rcases FileTree.readText_of_fileAt? isFile with ⟨text, isRead, isLines⟩ | ⟨fault, isRead, isLines⟩
      · rw [isRead, isLines]
        exact expandEntries_eq_none fun _ _ found isFile => inductionHypothesis isFile found
      · rw [isRead, isLines]
        simp

theorem expandFile_mono {depth deeper : Nat} (le : depth ≤ deeper) {path : Text} {found more : Found}
    (expanded : expandFile tree depth path found = some more) :
    expandFile tree deeper path found = some more := by
  induction depth generalizing deeper path found more with
  | zero => cases expanded
  | succ depth inductionHypothesis =>
      obtain ⟨deeper, rfl⟩ := Nat.exists_eq_add_one_of_ne_zero (show deeper ≠ 0 by omega)
      unfold expandFile at expanded ⊢
      split at expanded
      · rename_i isRead
        exact expandEntries_mono (fun _ _ _ => inductionHypothesis (Nat.le_of_succ_le_succ le)) expanded
      · rename_i isRead
        exact expanded

theorem expandWithin_mono {depth deeper : Nat} (le : depth ≤ deeper) {entries : List Text}
    {found : Found} (expanded : expandWithin tree depth entries = some found) :
    expandWithin tree deeper entries = some found :=
  expandEntries_mono (fun _ _ _ => expandFile_mono le) expanded

theorem expandWithin_eq_none {depth : Nat} {entries : List Text} :
    expandWithin tree depth entries = none ↔
      ∃ entry ∈ entries, ∃ location ∈ named? tree entry, Nests tree depth location :=
  expandEntries_eq_none fun _ _ found isFile => expandFile_eq_none depth isFile found

/-- From a file that leads to a loop, there is a step to another one. -/
theorem Loops.step (loops : Loops tree location) : ∃ inner, Names tree location inner ∧ Loops tree inner := by
  obtain ⟨again, leads, returns⟩ := loops
  rcases leads.cases_head with rfl | ⟨inner, names, leadsOn⟩
  · obtain ⟨inner, names, back⟩ := TransGen.head'_iff.mp returns
    exact ⟨inner, names, location, back, returns⟩
  · exact ⟨inner, names, again, leadsOn, returns⟩

theorem Loops.nests (loops : Loops tree location) (depth : Nat) : Nests tree depth location := by
  induction depth generalizing location with
  | zero => trivial
  | succ depth inductionHypothesis =>
      obtain ⟨inner, names, loopsOn⟩ := loops.step
      exact ⟨inner, names, inductionHypothesis loopsOn⟩

theorem Nests.exists_chain {depth : Nat} (nests : Nests tree depth location) :
    ∃ inner : List Location, inner.length = depth ∧ (location :: inner).IsChain (Names tree) := by
  induction depth generalizing location with
  | zero => exact ⟨[], rfl, List.isChain_singleton _⟩
  | succ depth inductionHypothesis =>
      obtain ⟨next, names, nestsOn⟩ := nests
      obtain ⟨inner, isLength, isChain⟩ := inductionHypothesis nestsOn
      exact ⟨next :: inner, congrArg (· + 1) isLength, List.isChain_cons_cons.mpr ⟨names, isChain⟩⟩

theorem mem_files_of_named {line : Text} (isNamed : named? tree line = some location) :
    location ∈ tree.files.map Prod.fst := by
  unfold named? at isNamed
  dsimp only at isNamed
  split at isNamed
  · cases isNamed
  · obtain ⟨-, isContents⟩ := FileTree.fileAt?_eq_some.mp isNamed
    obtain ⟨contents, isContents⟩ := Option.isSome_iff_exists.mp isContents
    obtain ⟨before, after, isFiles, -⟩ := List.lookup_eq_some_iff.mp isContents
    exact List.mem_map.mpr ⟨(location, contents), by simp [isFiles], rfl⟩

/-- A way with more steps than there are files comes twice to one of them. -/
theorem Nests.loops (isFile : location ∈ tree.files.map Prod.fst)
    (nests : Nests tree tree.files.length location) : Loops tree location := by
  obtain ⟨inner, isLength, isChain⟩ := nests.exists_chain
  have ways : (location :: inner).Pairwise (TransGen (Names tree)) :=
    List.isChain_iff_pairwise.mp (isChain.imp fun _ _ => TransGen.single)
  have reached : ∀ other ∈ location :: inner, ReflTransGen (Names tree) location other := by
    rw [List.forall_mem_cons]
    exact ⟨.refl, fun other member => ((List.pairwise_cons.mp ways).1 other member).to_reflTransGen⟩
  have areFiles : location :: inner ⊆ tree.files.map Prod.fst := by
    intro other member
    rcases List.mem_cons.mp member with rfl | isInner
    · exact isFile
    · obtain ⟨_, -, line, -, isNamed⟩ :=
        TransGen.tail'_iff.mp ((List.pairwise_cons.mp ways).1 other isInner)
      exact mem_files_of_named isNamed
  by_contra noLoop
  have distinct : (location :: inner).Nodup := by
    refine ways.imp_of_mem fun {first second} isFirst _ way same => ?_
    subst same
    exact noLoop ⟨first, reached first isFirst, way⟩
  have most := (distinct.subperm areFiles).length_le
  rw [List.length_cons, isLength, List.length_map] at most
  omega

theorem loops_iff_nests (isFile : location ∈ tree.files.map Prod.fst) :
    Loops tree location ↔ Nests tree tree.files.length location :=
  ⟨fun loops => loops.nests _, Nests.loops isFile⟩

theorem leadsTo_loop_iff {entries : List Text} :
    (∃ entry ∈ entries, ∃ location ∈ named? tree entry, Loops tree location) ↔
      ∃ location, LeadsTo tree entries location ∧ TransGen (Names tree) location location := by
  constructor
  · rintro ⟨entry, isEntry, first, isNamed, again, leads, returns⟩
    exact ⟨again, ⟨entry, isEntry, first, isNamed, leads⟩, returns⟩
  · rintro ⟨again, ⟨entry, isEntry, first, isNamed, leads⟩, returns⟩
    exact ⟨entry, isEntry, first, isNamed, again, leads, returns⟩

/-- Where the list leads to a loop, no depth of the recursion is enough. -/
theorem expandWithin_loop {entries : List Text} (leads : LeadsTo tree entries location)
    (returns : TransGen (Names tree) location location) (depth : Nat) :
    expandWithin tree depth entries = none := by
  obtain ⟨entry, isEntry, first, isNamed, loops⟩ := leadsTo_loop_iff.mpr ⟨location, leads, returns⟩
  exact expandWithin_eq_none.mpr ⟨entry, isEntry, first, isNamed, loops.nests depth⟩

/-- The number of files is a sufficient bound wherever there is one. -/
theorem expand?_eq_none {entries : List Text} :
    expand? tree entries = none ↔
      ∃ location, LeadsTo tree entries location ∧ TransGen (Names tree) location location := by
  rw [← leadsTo_loop_iff]
  refine expandWithin_eq_none.trans ?_
  refine exists_congr fun entry => and_congr_right fun _ => exists_congr fun first =>
    and_congr_right fun isNamed => (loops_iff_nests (mem_files_of_named isNamed)).symm

/-- The recursion through the host files ends exactly if the list leads to no file that leads back
to itself; then it gives the same list however deep it may go beyond that. -/
theorem expandWithin_ends (tree : FileTree) (entries : List Text) :
    ((∃ depth found, expandWithin tree depth entries = some found) ↔
      ¬∃ location, LeadsTo tree entries location ∧ TransGen (Names tree) location location) ∧
    ∀ depth, expandWithin tree depth entries = none ∨
      expandWithin tree depth entries = expand? tree entries := by
  have ends (given : ¬∃ location, LeadsTo tree entries location ∧
      TransGen (Names tree) location location) : ∃ found, expand? tree entries = some found :=
    Option.ne_none_iff_exists'.mp fun isNone => given (expand?_eq_none.mp isNone)
  constructor
  · constructor
    · rintro ⟨depth, found, expanded⟩ ⟨location, leads, returns⟩
      exact nomatch (expandWithin_loop leads returns depth).symm.trans expanded
    · intro given
      exact ⟨tree.files.length, ends given⟩
  · intro depth
    cases isExpanded : expandWithin tree depth entries with
    | none => exact .inl rfl
    | some found =>
        right
        obtain ⟨most, isMost⟩ := ends fun ⟨location, leads, returns⟩ =>
          nomatch (expandWithin_loop leads returns depth).symm.trans isExpanded
        have first := expandWithin_mono (Nat.le_max_left depth tree.files.length) isExpanded
        have second := expandWithin_mono (Nat.le_max_right depth tree.files.length) isMost
        rw [isMost, ← first, second]

/-- A file with its own name in it. -/
def reflexive : FileTree := ⟨[], [(["a.txt"], encode "10.0.0.1\na.txt\n")]⟩

/-- The recursion has no end where a file names itself. -/
theorem expandWithin_reflexive : ¬∀ (tree : FileTree) (entries : List Text),
    ∃ depth found, expandWithin tree depth entries = some found := by
  intro ends
  have isNamed : named? reflexive "a.txt" = some [("a.txt" : Text)] := by decide
  have names : Names reflexive ["a.txt"] ["a.txt"] := by
    have isLines : reflexive.linesAt ["a.txt"] = [("10.0.0.1" : Text), "a.txt"] := by decide
    exact ⟨"a.txt", isLines ▸ List.mem_cons_of_mem _ List.mem_cons_self, isNamed⟩
  have leads : LeadsTo reflexive ["a.txt"] ["a.txt"] :=
    ⟨"a.txt", List.mem_cons_self, ["a.txt"], isNamed, .refl⟩
  obtain ⟨depth, found, expanded⟩ := ends reflexive ["a.txt"]
  exact nomatch (expandWithin_loop leads (.single names) depth).symm.trans expanded

end Host

end ManagementShell

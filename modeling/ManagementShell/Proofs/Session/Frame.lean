import ManagementShell.Proofs.Failure
import ManagementShell.Proofs.FileTree
import ManagementShell.Session.Jump

/-
This file shows that the frames of scripts have no character that the scripts and their paths lack.
-/

namespace ManagementShell
open Text

variable {c : Char}

namespace Frame

/-- Neither the name nor a line of the script has the character. -/
structure Lacks (c : Char) (frame : Frame) : Prop where
  name : c ∉ frame.name
  lines : ∀ line ∈ frame.lines, c ∉ line

theorem ofSource_lacks {name source : Text} (lacksName : c ∉ name) (lacks : c ∉ source)
    (enteredByGosub : Bool) : (ofSource name source enteredByGosub).Lacks c :=
  ⟨lacksName, lines_lacks lacks⟩

theorem load_gives {files : FileTree} {path : Text} (lacksFiles : files.Lacks c)
    (lacks : c ∉ path) (enteredByGosub : Bool) :
    Gives (load files path enteredByGosub) (fun frame => frame.Lacks c) fun failure =>
      failure.Quotes (c ∉ ·) := by
  unfold load
  split
  · rename_i source isSource
    exact ofSource_lacks lacks (lacksFiles.readText isSource) _
  · exact lacks

theorem locate_gives {frame : Frame} {target : Text} (lacksFrame : frame.Lacks c)
    (lacks : c ∉ target) :
    Gives (frame.locate target) (fun _ => True) fun failure => failure.Quotes (c ∉ ·) := by
  have label : c ∉ (trim target).dropWhile (· == ':') := fun member =>
    trim_lacks lacks (List.dropWhile_subset _ member)
  unfold locate
  split
  · split
    · trivial
    · trivial
  · dsimp only
    split
    · trivial
    · exact ⟨label, lacksFrame.name⟩

end Frame

namespace Session

/-- No text of the destination has the character. -/
def Destination.Lacks (c : Char) : Destination → Prop
  | .script path place => c ∉ path ∧ c ∉ place
  | .inside place => c ∉ place

theorem Destination.read_lacks {target : Text} (lacks : c ∉ target) :
    (Destination.read target).Lacks c := by
  unfold Destination.read
  split
  · rename_i path place isCut
    split
    · exact lacks
    · exact cut?_lacks isCut lacks
  · split
    · exact ⟨lacks, List.not_mem_nil⟩
    · exact lacks

theorem enter_gives {files : FileTree} {path place : Text} (lacksFiles : files.Lacks c)
    (lacks : c ∉ path) (lacksPlace : c ∉ place) (enteredByGosub : Bool) :
    Gives (enter files path place enteredByGosub) (fun frame => frame.Lacks c) fun failure =>
      failure.Quotes (c ∉ ·) := by
  have loaded := Frame.load_gives lacksFiles lacks enteredByGosub
  unfold enter
  split
  · rename_i cause failed
    rw [failed] at loaded
    exact loaded
  · rename_i frame isLoaded
    rw [isLoaded] at loaded
    have located := Frame.locate_gives loaded lacksPlace
    split
    · exact loaded
    · split
      · exact ⟨loaded.name, loaded.lines⟩
      · rename_i cause failed
        rw [failed] at located
        exact located

theorem returned?_lacks {frame after : Frame} (isReturned : returned? frame = some after)
    (lacks : frame.Lacks c) : after.Lacks c := by
  unfold returned? at isReturned
  split at isReturned
  · cases isReturned
    exact ⟨lacks.name, lacks.lines⟩
  · split at isReturned
    · cases isReturned
      exact ⟨lacks.name, lacks.lines⟩
    · cases isReturned

end Session

end ManagementShell

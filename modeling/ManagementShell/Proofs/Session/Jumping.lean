import ManagementShell.Proofs.Session.Run

/-
This file shows that a jump is taken as a whole or not at all: one that fails leaves the session as
it was, and one inside a script moves the innermost frame and nothing else.
-/

namespace ManagementShell
open Text

/-- A script with the name and the lines has no line with the number or the label. -/
inductive Frame.Unlocated (name : Text) (lines : List Text) (place : Text) : Failure → Prop
  | number {number : Int} (isNumber : integer? (trim place) = some number)
      (notPositive : number ≤ 0) : Unlocated name lines place (.script (.badLineNumber number))
  | label {label : Text} (noNumber : integer? (trim place) = none)
      (isLabel : label = (trim place).dropWhile (· == ':'))
      (missing : ∀ line ∈ lines, labelOf? line ≠ some label) :
      Unlocated name lines place (.script (.missingLabel label name))

namespace Frame

variable {frame : Frame} {place label : Text} {cause : Failure}

theorem label?_eq_none_iff :
    frame.label? label = none ↔ ∀ line ∈ frame.lines, labelOf? line ≠ some label := by
  simp [label?]

theorem locate_eq_error_iff :
    frame.locate place = .error cause ↔ Unlocated frame.name frame.lines place cause := by
  unfold locate
  constructor
  · intro failed
    split at failed
    · rename_i number isNumber
      split at failed
      · rename_i notPositive
        cases failed
        exact .number isNumber notPositive
      · cases failed
    · rename_i noNumber
      dsimp only at failed
      split at failed
      · cases failed
      · rename_i missing
        cases failed
        exact .label noNumber rfl (label?_eq_none_iff.mp missing)
  · rintro (⟨isNumber, notPositive⟩ | ⟨noNumber, rfl, missing⟩)
    · rw [isNumber]
      exact if_pos notPositive
    · rw [noNumber]
      dsimp only
      rw [label?_eq_none_iff.mpr missing]

end Frame

namespace Session

variable {σ : Type}

/-- The command that jumps to the target. -/
def jumpCommand (isGosub : Bool) (target : Text) : Command :=
  if isGosub then .gosub target else .goto target

/-- What keeps a session from jumping to the target: no script runs, the file of another script
cannot be read, or the script that the target is in has no such place. -/
inductive Blocked (session : Session σ) (target : Text) : Failure → Prop
  | outside (noScript : session.frames = []) : Blocked session target (.script .noScript)
  | unreadable {path place : Text} {fault : FileFault} (running : session.frames ≠ [])
      (leads : Destination.read target = .script path place)
      (unreadable : session.connection.files.readText path = .error fault) :
      Blocked session target (.script (.missingFile path fault))
  | elsewhere {path place source : Text} {cause : Failure} (running : session.frames ≠ [])
      (leads : Destination.read target = .script path place)
      (reads : session.connection.files.readText path = .ok source) (given : place ≠ [])
      (unlocated : Frame.Unlocated path (lines source) place cause) :
      Blocked session target cause
  | inside {frame : Frame} {below : List Frame} {place : Text} {cause : Failure}
      (running : session.frames = frame :: below)
      (leads : Destination.read target = .inside place)
      (unlocated : Frame.Unlocated frame.name frame.lines place cause) :
      Blocked session target cause

theorem enter_eq_error_iff {files : FileTree} {path place : Text} {enteredByGosub : Bool}
    {cause : Failure} : enter files path place enteredByGosub = .error cause ↔
      (∃ fault, files.readText path = .error fault ∧ cause = .script (.missingFile path fault)) ∨
        ∃ source, files.readText path = .ok source ∧ place ≠ [] ∧
          Frame.Unlocated path (lines source) place cause := by
  unfold enter Frame.load
  cases files.readText path with
  | error fault => simp [eq_comm]
  | ok source =>
      have located : (Frame.ofSource path source enteredByGosub).locate place = .error cause ↔
          Frame.Unlocated path (lines source) place cause := Frame.locate_eq_error_iff
      simp only [reduceCtorEq, false_and, exists_false, Except.ok.injEq, exists_eq_left', false_or,
        ← located]
      split
      · rename_i empty
        simp [empty]
      · rename_i given
        cases (Frame.ofSource path source enteredByGosub).locate place <;> simp [given]

section

variable {setting : Setting σ} {session after : Session σ} {target expanded : Text}
  {isGosub : Bool} {cause : Failure}
  (expands : session.store.expand (session.date setting.clock) target = expanded)
include expands

theorem jump_of_blocked {runFrame : Frame → Action σ Bool}
    (blocked : Blocked session expanded cause) :
    jump setting runFrame target isGosub session = .error (.failed cause) session := by
  have enters {path place : Text} (isRunning : session.frames ≠ [])
      (leads : Destination.read expanded = .script path place)
      (fails : ∀ enteredByGosub,
        enter session.connection.files path place enteredByGosub = .error cause) :
      jump setting runFrame target isGosub session = .error (.failed cause) session := by
    obtain ⟨frame, below, running⟩ := List.exists_cons_of_ne_nil isRunning
    rw [jump_script isGosub running expands leads, fails]
  cases blocked with
  | outside noScript => exact jump_outside isGosub noScript
  | unreadable isRunning leads fails =>
      exact enters isRunning leads fun _ => enter_eq_error_iff.mpr (.inl ⟨_, fails, rfl⟩)
  | elsewhere isRunning leads reads given unlocated =>
      exact enters isRunning leads fun _ =>
        enter_eq_error_iff.mpr (.inr ⟨_, reads, given, unlocated⟩)
  | inside running leads unlocated =>
      rw [jump_inside isGosub running expands leads, Frame.locate_eq_error_iff.mpr unlocated]

/-- A frame that runs nested halts only when the steps are used up, so that it is the jump itself
that fails. -/
theorem blocked_of_jump {bound : Nat} (failed : jump setting (runFrame setting bound) target isGosub
      session = .error (.failed cause) after) :
    Blocked session expanded cause ∧ after = session := by
  cases running : session.frames with
  | nil =>
      rw [jump_outside isGosub running] at failed
      cases failed
      exact ⟨.outside running, rfl⟩
  | cons frame below =>
      have isRunning : session.frames ≠ [] := running ▸ List.cons_ne_nil frame below
      cases leads : Destination.read expanded with
      | script path place =>
          rw [jump_script isGosub running expands leads] at failed
          split at failed
          · rename_i enters
            cases failed
            rcases enter_eq_error_iff.mp enters with
              ⟨fault, fails, rfl⟩ | ⟨source, reads, given, unlocated⟩
            · exact ⟨.unreadable isRunning leads fails, rfl⟩
            · exact ⟨.elsewhere isRunning leads reads given unlocated, rfl⟩
          · rename_i other _
            split at failed
            · have halts := ends_of_eq_error failed (runFrame_ran setting bound other session)
              cases halts.1
            · cases failed
      | inside place =>
          rw [jump_inside isGosub running expands leads] at failed
          split at failed
          · rename_i unlocated
            cases failed
            exact ⟨.inside running leads (Frame.locate_eq_error_iff.mp unlocated), rfl⟩
          · cases failed

end

/-- A jump fails exactly where it is blocked, and then nothing of the session has changed. One inside
the script that runs changes the cursor of the innermost frame, and for a gosub also leaves there the
place to come back to, and nothing else is seen to change. -/
theorem execute_jump_whole (setting : Setting σ) (calls bound : Nat) (session after : Session σ)
    (isGosub : Bool) (target : Text) :
    let expanded := session.store.expand (session.date setting.clock) target
    let result := execute setting calls (runFrame setting bound) (jumpCommand isGosub target) session
    (∀ cause, result = .error (.failed cause) after ↔
        Blocked session expanded cause ∧ after = session) ∧
      ∀ frame below place, session.frames = frame :: below →
        Destination.read expanded = .inside place → ∀ succeeds, result = .ok succeeds after ↔
          succeeds = true ∧ ∃ cursor, frame.locate place = .ok cursor ∧
            after = { session with frames := { frame with
                cursor := cursor
                returns := if isGosub then frame.cursor :: frame.returns else frame.returns } ::
              below }.addEvent (.moved (below.length + 1) (if isGosub then .gosub else .goto)) := by
  intro expanded result
  have isJump : result = jump setting (runFrame setting bound) target isGosub session := by
    cases isGosub <;> rfl
  refine ⟨fun cause => ?_, fun frame below place running leads succeeds => ?_⟩
  · rw [isJump]
    refine ⟨blocked_of_jump rfl, ?_⟩
    rintro ⟨blocked, rfl⟩
    exact jump_of_blocked rfl blocked
  · rw [isJump, jump_inside isGosub running rfl leads]
    cases frame.locate place with
    | error cause => simp
    | ok cursor => simp [moveInside, eq_comm]

/-- In this session a script with one label runs at its second line, in a subroutine. -/
def inSubroutine : Session (List (Except Text Text)) :=
  { start {} [] ⟨[], []⟩ with frames := [⟨"main", ["Gosub Sub", "Quit", ":Sub"], 1, [7], false⟩] }

/-- A gosub to a label that the script does not have changes nothing, and one to its label moves the
cursor and leaves the line behind it. -/
theorem execute_jump_whole_subroutine :
    execute .plain 0 (runFrame .plain 0) (.gosub "Nowhere") inSubroutine =
        .error (.failed (.script (.missingLabel "Nowhere" "main"))) inSubroutine ∧
      execute .plain 0 (runFrame .plain 0) (.gosub "Sub") inSubroutine =
        .ok true ({ inSubroutine with
          frames := [⟨"main", ["Gosub Sub", "Quit", ":Sub"], 2, [1, 7], false⟩] }.addEvent
            (.moved 1 .gosub)) := by
  have leadsNowhere : Destination.read (inSubroutine.store.expand [] "Nowhere") =
      .inside "Nowhere" := by decide
  have missing : Blocked inSubroutine (inSubroutine.store.expand [] "Nowhere")
      (.script (.missingLabel "Nowhere" "main")) :=
    .inside rfl leadsNowhere (.label (by decide) rfl (by decide))
  have leads : Destination.read (inSubroutine.store.expand [] "Sub") = .inside "Sub" := by
    decide
  exact ⟨((execute_jump_whole .plain 0 0 _ _ true "Nowhere").1 _).mpr ⟨missing, rfl⟩,
    ((execute_jump_whole .plain 0 0 _ _ true "Sub").2 _ _ _ rfl leads true).mpr
      ⟨rfl, 2, by decide, rfl⟩⟩

end Session

end ManagementShell

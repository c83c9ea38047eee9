import ManagementShell.Proofs.Outcome
import ManagementShell.Session.Jump

/-
This file says once what a jump and a return can do with a session: they fail and leave it as it is,
they move the innermost frame, or a jump runs another script in a frame of its own.
-/

namespace ManagementShell.Session
open Text

variable {σ : Type} {setting : Setting σ} {runFrame : Frame → Action σ Bool} {session : Session σ}

section

variable {target expanded : Text} (isGosub : Bool)

theorem jump_outside (noScript : session.frames = []) :
    jump setting runFrame target isGosub session = .error (.failed (.script .noScript)) session := by
  rw [jump, get_bind, noScript]
  rfl

variable {frame : Frame} {below : List Frame} (running : session.frames = frame :: below)
  (expands : session.store.expand (session.date setting.clock) target = expanded)
include running expands

/-- A jump to another script fails where this cannot be entered, or runs it, or moves into it. -/
theorem jump_script {path place : Text} (leads : Destination.read expanded = .script path place) :
    jump setting runFrame target isGosub session =
      match enter session.connection.files path place (isGosub || frame.enteredByGosub) with
      | .error cause => .error (.failed cause) session
      | .ok other => if isGosub then runFrame other session else
          .ok true ({ session with frames := other :: below }.addEvent
            (.moved (below.length + 1) .replace)) := by
  subst expands
  have expands : expand setting target session =
      .ok (session.store.expand (session.date setting.clock) target) session := rfl
  rw [jump, get_bind, running]
  dsimp only
  rw [bind_of_eq_ok expands, leads]
  dsimp only
  rw [get_bind]
  cases enter session.connection.files path place (isGosub || frame.enteredByGosub) with
  | error cause => rfl
  | ok other => cases isGosub <;> rfl

/-- A jump inside a script fails where there is no such place, or moves the innermost frame. -/
theorem jump_inside {place : Text} (leads : Destination.read expanded = .inside place) :
    jump setting runFrame target isGosub session =
      match frame.locate place with
      | .error cause => .error (.failed cause) session
      | .ok cursor => .ok true
          ({ session with frames := moveInside frame cursor isGosub :: below }.addEvent
            (.moved (below.length + 1) (if isGosub then .gosub else .goto))) := by
  subst expands
  have expands : expand setting target session =
      .ok (session.store.expand (session.date setting.clock) target) session := rfl
  rw [jump, get_bind, running]
  dsimp only
  rw [bind_of_eq_ok expands, leads]
  dsimp only
  cases frame.locate place <;> rfl

end

section

variable {done : Bool → Session σ → Prop} {halted : Halt → Session σ → Prop}

/-- A jump fails, a gosub runs another script that it can enter, a goto puts this in the place of the
innermost frame, or the cursor moves to a place that the script of the innermost frame has. -/
theorem ends_jump {target : Text} {isGosub : Bool}
    (fails : ∀ cause, halted (.failed cause) session)
    (runs : ∀ path place other, isGosub = true →
      enter session.connection.files path place true = .ok other →
      Ends (runFrame other) session done halted)
    (replaces : ∀ frame below path place other, isGosub = false → session.frames = frame :: below →
      enter session.connection.files path place frame.enteredByGosub = .ok other →
      done true ({ session with frames := other :: below }.addEvent
        (.moved (below.length + 1) .replace)))
    (moves : ∀ frame below place cursor, session.frames = frame :: below →
      frame.locate place = .ok cursor →
      done true ({ session with frames := moveInside frame cursor isGosub :: below }.addEvent
        (.moved (below.length + 1) (if isGosub then .gosub else .goto)))) :
    Ends (jump setting runFrame target isGosub) session done halted := by
  cases running : session.frames with
  | nil =>
      rw [Ends, jump_outside isGosub running]
      exact fails _
  | cons frame below =>
      cases leads : Destination.read
          (session.store.expand (session.date setting.clock) target) with
      | script path place =>
          rw [Ends, jump_script isGosub running rfl leads]
          cases isGosub with
          | true =>
              rw [Bool.true_or]
              cases entered : enter session.connection.files path place true with
              | error cause => exact fails cause
              | ok other => exact runs path place other rfl entered
          | false =>
              rw [Bool.false_or]
              cases entered : enter session.connection.files path place frame.enteredByGosub with
              | error cause => exact fails cause
              | ok other => exact replaces frame below path place other rfl running entered
      | inside place =>
          rw [Ends, jump_inside isGosub running rfl leads]
          cases located : frame.locate place with
          | error cause => exact fails cause
          | ok cursor => exact moves frame below place cursor running located

/-- A return fails, or moves the innermost frame back. -/
theorem ends_leave (fails : ∀ cause, halted (.failed cause) session)
    (leaves : ∀ frame below after, session.frames = frame :: below →
      returned? frame = some after →
      done true ({ session with frames := after :: below }.addEvent
        (.moved (below.length + 1) .leave))) :
    Ends leave session done halted := by
  simp only [leave, ends_bind, ends_get]
  split
  · exact fails _
  · rename_i frame below running
    split
    · rename_i after returned
      exact leaves frame below after running returned
    · exact fails _

end

end ManagementShell.Session

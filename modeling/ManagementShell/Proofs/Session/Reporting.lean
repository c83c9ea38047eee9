import ManagementShell.Proofs.Session.Alteration
import ManagementShell.Proofs.Session.Failing

/-
This file shows where failures are reported: at the line that fails, whatever else it has run.
-/

namespace ManagementShell

/-- A frame whose script is not taken over keeps its name. -/
theorem Frame.Goes.name {first last : Frame} {passed : List Step} (goes : first.Goes passed last)
    (stays : .move .replace ∉ passed) : last.name = first.name := by
  induction goes with
  | stay frame => rfl
  | line _ _ inductionHypothesis | goto _ _ inductionHypothesis | gosub _ _ inductionHypothesis =>
      exact inductionHypothesis fun member => stays (.tail _ member)
  | leave returned _ inductionHypothesis =>
      refine (inductionHypothesis fun member => stays (.tail _ member)).trans ?_
      unfold Session.returned? at returned
      split at returned
      · cases returned
        rfl
      · simp only [Option.ite_none_right_eq_some, Option.some.injEq] at returned
        obtain ⟨_, rfl⟩ := returned
        rfl
  | replace => exact absurd List.mem_cons_self stays

namespace Session
open Text

variable {σ : Type} {setting : Setting σ}

/-- The place of execution is noted as before. -/
structure Stands (before after : Store) : Prop where
  line : after.stored? Variable.line = before.stored? Variable.line
  script : after.stored? Variable.script = before.stored? Variable.script

/-- A script cannot change the variables that note the place of execution. -/
theorem stands_lasts : Store.Lasts Stands where
  chains := {
    stay := fun _ => ⟨rfl, rfl⟩
    join := fun first second => ⟨second.line.trans first.line, second.script.trans first.script⟩ }
  change store change :=
    ⟨change.apply_internal store (by decide), change.apply_internal store (by decide)⟩

/-- Whatever a command runs, the place of execution is noted as before when it is over. -/
theorem execute_stands (bound : Nat) (command : Command) :
    Leads (Varies Stands) (execute setting bound (runFrame setting bound) command) :=
  execute_varies stands_lasts (fun frame session => (runFrame_ran setting bound frame session).weaken
    (fun _ _ ⟨_, ran⟩ => ⟨ran.restored.line, ran.restored.script⟩)
    (fun _ _ ⟨_, _, ran⟩ => ⟨ran.restored.line, ran.restored.script⟩)) command

/-- The report of a failure at a line of a script. -/
def reportAt (script : Text) (number : Int) (message : Text) : Record :=
  ⟨.error, script ++ ":" ++ ofInt number ++ " - " ++ message⟩

/-- A message as it is reported, without credentials. -/
def hidden (session : Session σ) (message : Text) : Text :=
  Masking.hideCredentials (session.store.hidePassword message)

/-- A failure is reported at the innermost frame and the line number. -/
theorem reportFailure_placed {session : Session σ} {frame : Frame} {below : List Frame}
    (innermost : session.frames = frame :: below) (message : Text) :
    reportFailure message session = .ok () (session.addEvent
      (.record (reportAt frame.name session.lineNumber (session.hidden message)))) := by
  rw [reportFailure, get_bind, innermost]
  rfl

/-- The failure of an action is reported where the action has left the session. -/
theorem settle_placed {action : Action σ Bool} {before failed : Session σ} {frame : Frame}
    {below : List Frame} (fails : IsFailure (action before) failed)
    (innermost : failed.frames = frame :: below) (name : Text) (ignoresFailure : Bool) :
    ∃ message, settle name ignoresFailure action before = .ok ignoresFailure
      (failed.addEvent (.record (reportAt frame.name failed.lineNumber message))) := by
  unfold settle
  rcases fails with unsuccessful | ⟨cause, caused⟩
  · rw [unsuccessful]
    exact ⟨_, bind_of_eq_ok (reportFailure_placed innermost (name ++ " failed")) _⟩
  · rw [caused]
    exact ⟨_, bind_of_eq_ok (reportFailure_placed innermost cause.message) _⟩

/-- What has happened since a line has begun, up to its failure: the innermost frame has moved, and
the place of execution is noted as it was. -/
structure Strays (begun failed : Session σ) : Prop where
  roams : begun.Roams failed
  stands : Stands begun.store failed.store

/-- A command that fails leaves the frames below alone, and its line is still the one noted. -/
theorem Stage.Fails.strays {bound : Nat} {command : Command} {before failed : Session σ}
    (last : command.returnIsLast = true)
    (fails : Stage.Fails setting ⟨.execute bound command, before⟩ failed) :
    before.Strays failed := by
  have nested : ∀ frame, Leads Apart (runFrame setting bound frame) := fun frame session =>
    (runFrame_ran setting bound frame session).weaken (fun _ _ ⟨_, ran⟩ => ran.apart)
      (fun _ _ ⟨_, _, ran⟩ => ran.apart)
  have moves : Ends (execute setting bound (runFrame setting bound) command) before _ _ :=
    execute_endsWell nested command last before
  have stands : Ends (execute setting bound (runFrame setting bound) command) before _ _ :=
    execute_stands bound command before
  rcases fails with unsuccessful | ⟨cause, caused⟩
  · have finishes := ends_of_eq_ok unsuccessful moves
    have stood := ends_of_eq_ok unsuccessful stands
    exact ⟨finishes.resolve_right fun returned => Bool.noConfusion returned.2.1, stood⟩
  · have roams := ends_of_eq_error caused moves
    have stood := ends_of_eq_error caused stands
    exact ⟨roams, stood⟩

/-- A line that fails ends with a report at the innermost frame and the number that was noted when
it began. -/
theorem LineFails.reported {bound : Nat} {text : Text} {begun failed : Session σ}
    (fails : LineFails setting bound text begun failed) :
    begun.Strays failed ∧ ∀ innermost below, failed.frames = innermost :: below →
      ∃ message, runLine setting bound text begun = .ok (isMarked text)
        (failed.addEvent (.record (reportAt innermost.name begun.lineNumber message))) := by
  cases fails with
  | @unread fault unread =>
      refine ⟨⟨roams_chains.stay begun, stands_lasts.chains.stay _⟩, fun innermost below same => ?_⟩
      rw [runLine, executeLine, get_bind, unread]
      exact ⟨_, bind_of_eq_ok (reportFailure_placed same fault.message) _⟩
  | command part fails =>
      cases part with
      | @command _ _ _ line ready reads echoes =>
          have echoed := ends_of_eq_ok echoes (echoed begun)
          have same := ends_of_eq_ok echoes (echo_store setting _ text begun)
          have last := gives_of_eq_ok reads (Line.read_lastReturn _ _)
          have strays := fails.strays last
          have stands : Stands begun.store failed.store := same ▸ strays.stands
          refine ⟨⟨roams_chains.join echoed.remains.passes.roams strays.roams, stands⟩,
            fun innermost below same => ?_⟩
          have number : failed.lineNumber = begun.lineNumber := by
            simp only [lineNumber, Store.integer?, stands.line]
          rw [runLine_of_read reads echoes, ← gives_of_eq_ok reads (Line.read_marked _ text), ← number]
          exact settle_placed fails same _ _

/-- When a line begins, its number is noted. -/
theorem Part.begins {bound lineBound : Nat} {frame : Frame} {before begun : Session σ} {text : Text}
    (part : Part setting ⟨.runFrame bound frame, before⟩ ⟨.runLine lineBound text, begun⟩) :
    ∃ (running : Frame) (below : List Frame),
      begun.frames = { running with cursor := running.cursor + 1 } :: below ∧
      running.lines[running.cursor]? = some text ∧ begun.lineNumber = running.cursor + 1 := by
  cases part with
  | @line _ _ _ head running below _ _ isHead goesOn innermost isLine begins =>
      cases begins
      refine ⟨running, below, rfl, isLine, ?_⟩
      have differs : Variable.line ≠ Variable.script := by decide
      simp [lineNumber, place, Store.integer?, addEvent, differs, Value.integer?]

/-- A frame stays where another script does not take it over. -/
theorem Roams.innermost {begun failed : Session σ} (roams : begun.Roams failed) {running : Frame}
    {below : List Frame} (innermost : begun.frames = running :: below) :
    ∃ last added, failed.frames = last :: below ∧
      failed.connection.events = begun.connection.events ++ added ∧
      (.moved (below.length + 1) .replace ∉ added → last.name = running.name) := by
  obtain ⟨passed, -, stack, added, grows, noted, -⟩ := roams
  rw [innermost] at stack noted
  generalize failed.frames = frames at stack
  cases stack with
  | @innermost _ _ last _ goes =>
      refine ⟨last, added, rfl, grows, fun stays => goes.name fun replaced => stays ?_⟩
      rw [← noted, steps, List.mem_filterMap] at replaced
      obtain ⟨event, member, isStep⟩ := replaced
      cases event with
      | moved place move =>
          simp only [Event.step?, Option.ite_none_right_eq_some, Option.some.injEq,
            Step.move.injEq] at isStep
          obtain ⟨rfl, rfl⟩ := isStep
          exact member
      | line place frame => simp [Event.step?] at isStep
      | _ => cases isStep

/-- Every line that fails is reported with its own number, whatever it has run before, and with the
name of its own script, unless another script has taken the frame over before the failure; then the
name is that of the other script. -/
theorem lineFails_placed (setting : Setting σ) {bound lineBound : Nat} {frame : Frame}
    {before begun failed : Session σ} {text : Text}
    (part : Part setting ⟨.runFrame bound frame, before⟩ ⟨.runLine lineBound text, begun⟩)
    (fails : LineFails setting lineBound text begun failed) :
    ∃ (running last : Frame) (below : List Frame) (added : List Event) (message : Text),
      begun.frames = { running with cursor := running.cursor + 1 } :: below ∧
      running.lines[running.cursor]? = some text ∧
      failed.frames = last :: below ∧
      failed.connection.events = begun.connection.events ++ added ∧
      (.moved (below.length + 1) .replace ∉ added → last.name = running.name) ∧
      runLine setting lineBound text begun = .ok (isMarked text)
        (failed.addEvent (.record (reportAt last.name (running.cursor + 1) message))) := by
  obtain ⟨running, below, innermost, isLine, number⟩ := part.begins
  obtain ⟨strays, reports⟩ := fails.reported
  obtain ⟨last, added, same, grows, name⟩ := strays.roams.innermost innermost
  obtain ⟨message, ends⟩ := reports last below same
  rw [number] at ends
  exact ⟨running, last, below, added, message, innermost, isLine, same, grows, name, ends⟩

/-- A call will be answered in this session, and there is another script. -/
def besides : Session (List (Except Text Text)) :=
  { answered with connection :=
      { answered.connection with files := ⟨[], [(["other.win"], encode "Print other")]⟩ } }

/-- After a subroutine in another script has run, the failure is that of the first line still. -/
theorem lineFails_placed_main : ∃ begun failed message,
    Part described ⟨.runFrame 4 (.ofSource "main" "-GetKey >>other.win /Missing" false), besides⟩
      ⟨.runLine 3 "-GetKey >>other.win /Missing", begun⟩ ∧
    LineFails described 3 "-GetKey >>other.win /Missing" begun failed ∧
    runLine described 3 "-GetKey >>other.win /Missing" begun =
      .ok true (failed.addEvent (.record (reportAt "main" 1 message))) := by
  let main : Frame := .ofSource "main" "-GetKey >>other.win /Missing" false
  let command : Command := .invoke ["GetKey"] none [.gosub "other.win", .find "Missing" none none]
  let begun := finalState (begin main [] { besides with frames := [main] })
  let failed := finalState (execute described 3 (runFrame described 3) command begun)
  have isHead : FrameHeads described 4 main besides { besides with frames := [main] } := .first
  have part : Part described ⟨.runFrame 4 main, besides⟩
      ⟨.runLine 3 "-GetKey >>other.win /Missing", begun⟩ := .line isHead rfl rfl rfl rfl
  have reads : Line.read begun.connection.files.isFile "-GetKey >>other.win /Missing" =
      .ok ⟨true, command⟩ := rfl
  have silent : onlyIf (!command.isNothing ∧ callLevel < begun.store.verbosityLevel)
      (echo described "-GetKey >>other.win /Missing") begun = .ok () begun :=
    congrFun (if_neg fun shown => absurd shown.2 (by decide +kernel)) begun
  have fails : LineFails described 3 "-GetKey >>other.win /Missing" begun failed :=
    .command (.command reads silent) (.inl (eq_ok_of_outcome (by decide +kernel)))
  obtain ⟨running, last, below, added, message, innermost, _, _, grows, name, ends⟩ :=
    lineFails_placed described part fails
  obtain ⟨isRunning, isBelow⟩ := List.cons.inj (innermost.symm.trans (rfl : begun.frames =
    [{ main with cursor := 1 }]))
  have isMain : running.name = "main" := congrArg Frame.name isRunning
  have isFirst : running.cursor + 1 = 1 := congrArg Frame.cursor isRunning
  have unmoved : Event.moved 1 .replace ∉ failed.connection.events := by decide +kernel
  rw [isBelow] at name
  have stays := name fun member => unmoved (grows ▸ List.mem_append_right _ member)
  rw [stays, isMain, show running.cursor = 0 by omega] at ends
  exact ⟨begun, failed, message, part, fails, ends⟩

/-- A line that lets another script take its frame over and fails then is reported as a line of that
script. -/
theorem lineFails_misplaced : ∃ begun failed,
    Part described ⟨.runFrame 4 (.ofSource "main" "GetKey >other.win /Missing" false), besides⟩
      ⟨.runLine 3 "GetKey >other.win /Missing", begun⟩ ∧
    LineFails described 3 "GetKey >other.win /Missing" begun failed ∧
    runLine described 3 "GetKey >other.win /Missing" begun =
      .ok false (failed.addEvent (.record (reportAt "other.win" 1 "GetKey failed"))) := by
  let main : Frame := .ofSource "main" "GetKey >other.win /Missing" false
  let command : Command := .invoke ["GetKey"] none [.goto "other.win", .find "Missing" none none]
  let begun := finalState (begin main [] { besides with frames := [main] })
  let failed := finalState (execute described 3 (runFrame described 3) command begun)
  have isHead : FrameHeads described 4 main besides { besides with frames := [main] } := .first
  have part : Part described ⟨.runFrame 4 main, besides⟩
      ⟨.runLine 3 "GetKey >other.win /Missing", begun⟩ := .line isHead rfl rfl rfl rfl
  have reads : Line.read begun.connection.files.isFile "GetKey >other.win /Missing" =
      .ok ⟨false, command⟩ := rfl
  have silent : onlyIf (!command.isNothing ∧ callLevel < begun.store.verbosityLevel)
      (echo described "GetKey >other.win /Missing") begun = .ok () begun :=
    congrFun (if_neg fun shown => absurd shown.2 (by decide +kernel)) begun
  have unsuccessful : execute described 3 (runFrame described 3) command begun =
      .ok false failed := eq_ok_of_outcome (by decide +kernel)
  have innermost : failed.frames = [.ofSource "other.win" "Print other" false] := by decide +kernel
  have number : failed.lineNumber = 1 := by decide +kernel
  have plain : failed.hidden (command.name ++ " failed") = "GetKey failed" := by decide +kernel
  refine ⟨begun, failed, part, .command (.command reads silent) (.inl unsuccessful), ?_⟩
  have reports := reportFailure_placed innermost (command.name ++ " failed")
  rw [number, plain] at reports
  rw [runLine_of_read reads silent, settle, unsuccessful]
  exact bind_of_eq_ok reports _

end Session

end ManagementShell

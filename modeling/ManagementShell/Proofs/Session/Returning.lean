import ManagementShell.Proofs.Session.Entry
import ManagementShell.Proofs.Session.Failing
import ManagementShell.Proofs.Session.Quitting

/-
This file shows what a return does: without a pending gosub inside the script, it ends a frame that
was entered by a gosub, so that the caller goes on, and it fails in any other frame.
-/

namespace ManagementShell.Session
open Text

variable {σ : Type} {setting : Setting σ}

/-- A return ends a frame that was entered by a gosub. -/
theorem leave_of_entered {session : Session σ} {running : Frame} {below : List Frame}
    (innermost : session.frames = running :: below) (none : running.returns = [])
    (marked : running.enteredByGosub = true) :
    leave session = .ok true ({ session with
      frames := { running with cursor := running.lines.length } :: below }.addEvent
        (.moved (below.length + 1) .leave)) := by
  rw [leave, get_bind, innermost]
  dsimp only
  rw [returned?, none]
  dsimp only
  rw [if_pos marked]
  rfl

/-- A return fails in any other frame, and leaves everything as it is. -/
theorem leave_of_not_entered {session : Session σ} {running : Frame} {below : List Frame}
    (innermost : session.frames = running :: below) (none : running.returns = [])
    (unmarked : running.enteredByGosub = false) :
    leave session = .error (.failed (.script .returnWithoutGosub)) session := by
  rw [leave, get_bind, innermost]
  dsimp only
  rw [returned?, none]
  dsimp only
  rw [if_neg (by simp [unmarked])]
  rfl

/-- The whole is a command that runs the other one under a condition or in a context. -/
def Wraps (setting : Setting σ) (whole stage : Stage σ) : Prop :=
  Part setting whole stage ∧ ∃ bound condition inner,
    whole.task = .execute bound (.conditional condition inner) ∨
      whole.task = .execute bound (.context condition inner)

/-- A wrapped command begins with the frames of the whole, and its success is that of the whole. -/
structure Enclosed (setting : Setting σ) (whole stage : Stage σ) : Prop where
  before : whole.before.Remains stage.before
  succeeds {last} (ends : stage.result setting = .ok true last) :
    ∃ after, whole.result setting = .ok true after ∧ last.Remains after

/-- A command that calls no method succeeds with what it runs. -/
theorem Part.succeeds {whole stage : Stage σ} (part : Part setting whole stage) {bound : Nat}
    {command : Command} (isCommand : whole.task = .execute bound command)
    (noInvoke : ∀ words condition operators, command ≠ .invoke words condition operators)
    {last : Session σ} (ends : stage.result setting = .ok true last) :
    ∃ after, whole.result setting = .ok true after ∧ last.Remains after := by
  have sequel := part.sequel (by simp [isCommand]) (by simp [isCommand])
  cases sequel with
  | same same => exact ⟨last, same.trans ends, remains_chains.stay last⟩
  | operators isOperators =>
      rw [isCommand] at isOperators
      rcases isOperators with isAll | ⟨words, condition, isInvoke⟩
      · cases isAll
      · cases isInvoke
        exact absurd rfl (noInvoke _ _ _)
  | polls isPoll => simp [isCommand] at isPoll
  | context same =>
      rw [ends] at same
      exact ⟨_, same, remains_of_events rfl rfl rfl⟩

theorem Wraps.enclosed {whole stage : Stage σ} (wraps : Wraps setting whole stage) :
    Enclosed setting whole stage := by
  obtain ⟨part, bound, condition, inner, isWrapper⟩ := wraps
  refine ⟨?_, fun {last} ends => ?_⟩
  · cases part with
    | context expands _ finds =>
        have still := still_chains.join ((expand_still setting _).relates expands)
          ((find_still setting _ _ _).relates finds)
        exact remains_chains.join still.remains (remains_of_events rfl rfl rfl)
    | conditional isTrue => exact ((holds_still setting _).relates isTrue).remains
    | line | command | batch | gosub | poll | invoke | operators | first | rest | pollOn | call
    | again => simp at isWrapper
  · rcases isWrapper with isConditional | isContext
    · exact part.succeeds isConditional (by simp) ends
    · exact part.succeeds isContext (by simp) ends

/-- The induction is on the way through the wrappers. -/
theorem enclosed_of_wraps {whole stage : Stage σ}
    (way : Relation.ReflTransGen (Wraps setting) whole stage) : Enclosed setting whole stage := by
  induction way using Relation.ReflTransGen.head_induction_on with
  | refl => exact ⟨remains_chains.stay _, fun ends => ⟨_, ends, remains_chains.stay _⟩⟩
  | head wraps _ inductionHypothesis =>
      have outer := wraps.enclosed
      refine ⟨remains_chains.join outer.before inductionHypothesis.before, fun ends => ?_⟩
      obtain ⟨middle, innerEnds, inner⟩ := inductionHypothesis.succeeds ends
      obtain ⟨after, wholeEnds, remains⟩ := outer.succeeds innerEnds
      exact ⟨after, wholeEnds, remains_chains.join inner remains⟩

theorem Wraps.raise {whole stage : Stage σ} (wraps : Wraps setting whole stage) (more : Nat) :
    Wraps setting (whole.raise more) (stage.raise more) := by
  obtain ⟨part, bound, condition, inner, isWrapper⟩ := wraps
  refine ⟨part.raise more, more + bound, condition, inner, ?_⟩
  rcases isWrapper with same | same
  · exact .inl (by rw [Stage.raise, same, Task.raise])
  · exact .inr (by rw [Stage.raise, same, Task.raise])

/-- The second stage is a part of the first one that runs in the same frame. -/
def Inside (setting : Setting σ) (whole stage : Stage σ) : Prop :=
  Part setting whole stage ∧ whole.task.opens? = none

/-- A return may be a part of the task, in the same frame. -/
def Task.mayReturn : Task → Bool
  | .execute _ command => command.mayReturn
  | .executeAll _ commands => Command.anyMayReturn commands
  | .runFrame _ _ | .runLine _ _ => true
  | .poll _ _ _ | .pollOn _ _ _ | .call _ => false

theorem Task.ofInvoke_mayReturn (bound : Nat) (words : List Text) (condition : Option Text) :
    (Task.ofInvoke bound words condition).mayReturn = false := by
  cases condition <;> rfl

/-- What may return in the same frame, may be a part only of what may return. -/
theorem Inside.mayReturn {whole stage : Stage σ} (inside : Inside setting whole stage)
    (may : stage.task.mayReturn = true) : whole.task.mayReturn = true := by
  obtain ⟨part, notOpened⟩ := inside
  cases part with
  | line | command => rfl
  | batch | gosub => cases notOpened
  | context | conditional =>
      simp only [Task.mayReturn] at may
      simpa [Task.mayReturn, Command.mayReturn] using may
  | poll => cases may
  | invoke => rw [Task.ofInvoke_mayReturn] at may; cases may
  | operators =>
      simp only [Task.mayReturn] at may
      simpa [Task.mayReturn, Command.mayReturn] using may
  | first | rest =>
      simp only [Task.mayReturn] at may
      simp [Task.mayReturn, Command.anyMayReturn, may]
  | pollOn | call | again => cases may

theorem mayReturn_of_inside {whole : Stage σ} {bound : Nat} {leaving : Session σ}
    (way : Relation.ReflTransGen (Inside setting) whole ⟨.execute bound .leave, leaving⟩) :
    whole.task.mayReturn = true := by
  induction way using Relation.ReflTransGen.head_induction_on with
  | refl => rfl
  | head inside _ inductionHypothesis => exact inside.mayReturn inductionHypothesis

/-- Where nothing runs after a return, the session comes to the return through wrappers only. The
induction is on the way. -/
theorem wraps_of_inside {bound leaveBound : Nat} {command : Command} {ready leaving : Session σ}
    (way : Relation.ReflTransGen (Inside setting) ⟨.execute bound command, ready⟩
      ⟨.execute leaveBound .leave, leaving⟩) (last : command.returnIsLast = true) :
    Relation.ReflTransGen (Wraps setting) ⟨.execute bound command, ready⟩
      ⟨.execute leaveBound .leave, leaving⟩ := by
  generalize isWhole : (⟨.execute bound command, ready⟩ : Stage σ) = whole at way ⊢
  induction way using Relation.ReflTransGen.head_induction_on generalizing bound command ready with
  | refl => exact .refl
  | @head _ stage inside rest inductionHypothesis =>
      subst isWhole
      have may := mayReturn_of_inside rest
      obtain ⟨part, notOpened⟩ := inside
      cases part with
      | batch | gosub => cases notOpened
      | context expands isCondition finds =>
          rw [Command.returnIsLast] at last
          exact .head ⟨.context expands isCondition finds, _, _, _, .inr rfl⟩
            (inductionHypothesis last rfl)
      | conditional isTrue =>
          rw [Command.returnIsLast] at last
          exact .head ⟨.conditional isTrue, _, _, _, .inl rfl⟩ (inductionHypothesis last rfl)
      | poll => cases may
      | invoke =>
          rw [Task.ofInvoke_mayReturn] at may
          cases may
      | operators =>
          simp only [Task.mayReturn] at may
          simp [Command.returnIsLast, may] at last

/-- A line succeeds with its command. -/
theorem Part.lineSucceeds {bound : Nat} {text : Text} {begun last : Session σ} {stage : Stage σ}
    (part : Part setting ⟨.runLine bound text, begun⟩ stage)
    (ends : stage.result setting = .ok true last) :
    runLine setting bound text begun = .ok true last := by
  cases part with
  | command reads echoes =>
      change execute setting bound (runFrame setting bound) _ _ = _ at ends
      rw [runLine_of_read reads echoes, settle, ends]

/-- A frame that comes to its end succeeds. -/
theorem turn_of_atEnd {line : Text → Action σ Bool} {base : Nat} {head : Session σ}
    (atEnd : head.AtEnd) : turn line base head = .ok (some true) head := by
  rw [turn, get_bind]
  split
  · rfl
  · cases innermost : head.frames with
    | nil => rfl
    | cons frame below =>
        dsimp only
        rw [List.getElem?_eq_none (atEnd frame below innermost)]
        rfl

theorem FrameHeads.succeeds {bound : Nat} {frame : Frame} {before head : Session σ}
    (isHead : FrameHeads setting bound frame before head) (atEnd : head.AtEnd) :
    ∃ enough, ∀ more ≥ enough,
      runFrame setting (more + bound) frame before = .ok true (leaveFrame before head) := by
  cases bound with
  | zero => exact isHead.elim
  | succ bound =>
      obtain ⟨enough, runs⟩ := isHead.runs
      refine ⟨enough, fun more least => ?_⟩
      obtain ⟨count, same⟩ := runs more least
      rw [same, drive, bind_of_eq_ok (turn_of_atEnd atEnd)]
      rfl

/-- The line that has begun is over, and its frame goes on at the line after it. -/
structure Resumes (setting : Setting σ) (bound : Nat) (frame : Frame) (before begun head : Session σ) :
    Prop where
  isHead : FrameHeads setting bound frame before head
  frames : head.frames = begun.frames
  goesOn : head.quits = false

/-- The next line begins. -/
theorem Resumes.next {bound : Nat} {frame running : Frame} {before begun head : Session σ}
    {below : List Frame} {text : Text} (resumes : Resumes setting (bound + 1) frame before begun head)
    (innermost : begun.frames = running :: below)
    (isLine : running.lines[running.cursor]? = some text) :
    ∃ nextBegun, begin running below head = .ok () nextBegun ∧
      Part setting ⟨.runFrame (bound + 1) frame, before⟩ ⟨.runLine bound text, nextBegun⟩ :=
  ⟨_, rfl, .line resumes.isHead resumes.goesOn (resumes.frames.trans innermost) isLine rfl⟩

theorem Resumes.raise {bound : Nat} {frame : Frame} {before begun head : Session σ}
    (resumes : Resumes setting bound frame before begun head) (more : Nat) :
    Resumes setting (more + bound) frame before begun head := by
  refine ⟨?_, resumes.frames, resumes.goesOn⟩
  cases bound with
  | zero => exact resumes.isHead.elim
  | succ bound =>
      exact resumes.isHead.extended (runLine_extended setting (Nat.le_add_left bound more))

/-- While the frame runs, a line has begun, and the stage is what it runs, under any conditions and
in any contexts. -/
inductive LineRuns (setting : Setting σ) (bound : Nat) (frame : Frame) (start begun : Session σ) :
    Stage σ → Prop
  | wraps {lineBound text command ready stage}
      (line : Part setting ⟨.runFrame bound frame, start⟩ ⟨.runLine lineBound text, begun⟩)
      (reads : Part setting ⟨.runLine lineBound text, begun⟩ ⟨.execute lineBound command, ready⟩)
      (way : Relation.ReflTransGen (Wraps setting) ⟨.execute lineBound command, ready⟩ stage) :
      LineRuns setting bound frame start begun stage

/-- While the frame runs, a line has begun, and the session comes to the stage in the same frame. -/
inductive LineComes (setting : Setting σ) (bound : Nat) (frame : Frame) (start begun : Session σ) :
    Stage σ → Prop
  | inside {lineBound text command ready stage}
      (line : Part setting ⟨.runFrame bound frame, start⟩ ⟨.runLine lineBound text, begun⟩)
      (reads : Part setting ⟨.runLine lineBound text, begun⟩ ⟨.execute lineBound command, ready⟩)
      (way : Relation.ReflTransGen (Inside setting) ⟨.execute lineBound command, ready⟩ stage) :
      LineComes setting bound frame start begun stage

section

variable {bound : Nat} {frame : Frame} {start begun : Session σ}

/-- A return is always the last thing that its line runs. -/
theorem LineComes.runs {leaveBound : Nat} {leaving : Session σ}
    (comes : LineComes setting bound frame start begun ⟨.execute leaveBound .leave, leaving⟩) :
    LineRuns setting bound frame start begun ⟨.execute leaveBound .leave, leaving⟩ := by
  obtain ⟨line, reads, way⟩ := comes
  cases reads with
  | @command _ _ _ read _ isRead echoes =>
      have last := gives_of_eq_ok isRead (Line.read_lastReturn _ _)
      exact ⟨line, .command isRead echoes, wraps_of_inside way last⟩

theorem entered_of_inside {whole stage : Stage σ}
    (way : Relation.ReflTransGen (Inside setting) whole stage) : stage.entered = whole.entered := by
  induction way with
  | refl => rfl
  | tail _ inside inductionHypothesis =>
      rw [inside.1.entered, inside.2]
      exact inductionHypothesis

/-- A line runs in the frames of its own script. -/
theorem LineComes.entered {stage : Stage σ}
    (comes : LineComes setting bound frame start begun stage) :
    stage.entered = frame.enteredByGosub :: start.entered := by
  obtain ⟨line, reads, way⟩ := comes
  rw [entered_of_inside way, reads.entered, line.entered]
  rfl

theorem LineRuns.raise {stage : Stage σ} (runs : LineRuns setting bound frame start begun stage)
    (more : Nat) : LineRuns setting (more + bound) frame start begun (stage.raise more) := by
  obtain ⟨line, reads, way⟩ := runs
  exact ⟨line.raise more, reads.raise more,
    way.lift (Stage.raise more) fun _ _ wraps => wraps.raise more⟩

/-- A line begins with the frames that what it runs begins with, and before the end of the session. -/
theorem LineRuns.before {stage : Stage σ} (runs : LineRuns setting bound frame start begun stage) :
    begun.Remains stage.before ∧ begun.quits = false := by
  obtain ⟨line, reads, way⟩ := runs
  refine ⟨?_, ?_⟩
  · cases reads with
    | command _ echoes =>
        have still := (onlyIf_leads still_chains (echo_still setting _)).relates echoes
        exact remains_chains.join still.remains (enclosed_of_wraps way).before
  · cases line with
    | line _ goesOn _ _ begins =>
        cases begins
        exact goesOn

/-- When what the line runs succeeds, the frame comes to the head of its loop. -/
theorem LineRuns.succeeds {stage : Stage σ} {last : Session σ}
    (runs : LineRuns setting bound frame start begun stage)
    (ends : stage.result setting = .ok true last) :
    ∃ head, FrameHeads setting bound frame start head ∧ last.Remains head := by
  obtain ⟨line, reads, way⟩ := runs
  obtain ⟨head, commandEnds, remains⟩ := (enclosed_of_wraps way).succeeds ends
  exact ⟨head, line.frameHead (reads.lineSucceeds commandEnds), remains⟩

end

/-- A return in a frame that was entered by a gosub ends the frame with success. -/
theorem runFrame_of_leave {bound leaveBound : Nat} {callee running : Frame} {below : List Frame}
    {before begun leaving : Session σ} (marked : callee.enteredByGosub = true)
    (returns : LineComes setting bound callee before begun ⟨.execute leaveBound .leave, leaving⟩)
    (innermost : leaving.frames = running :: below) (none : running.returns = []) :
    ∃ enough last, last.quits = false ∧ last.frames = before.frames ∧ ∀ more ≥ enough,
      runFrame setting (more + bound) callee before = .ok true last := by
  have same : leaving.entered = callee.enteredByGosub :: before.entered := returns.entered
  rw [Session.entered, innermost, List.map_cons] at same
  have isMarked := (List.cons.inj same).1.trans marked
  obtain ⟨begins, goesOn⟩ := returns.runs.before
  obtain ⟨head, isHead, remains⟩ :=
    returns.runs.succeeds (leave_of_entered innermost none isMarked)
  have atEnd : head.AtEnd := by
    intro frame rest isFrame
    rw [remains.frames] at isFrame
    cases isFrame
    exact Nat.le_refl _
  obtain ⟨enough, runs⟩ := isHead.succeeds atEnd
  refine ⟨enough, leaveFrame before head, ?_, ?_, runs⟩
  · exact remains.quits.trans (begins.quits.trans goesOn)
  · have restored := ends_of_eq_ok (runs enough (Nat.le_refl _)) (runFrame_ran setting _ _ _)
    obtain ⟨passed, ran⟩ := restored
    exact ran.restored.frames

/-- A return without a pending gosub inside its script lets the line that called the script succeed,
and the caller's frame goes on at the line after it. -/
theorem resumes_of_leave {bound lineBound leaveBound : Nat} {frame callee running : Frame}
    {below : List Frame} {target : Text} {start begun calling before calleeBegun leaving : Session σ}
    (calls : LineRuns setting bound frame start begun ⟨.execute lineBound (.gosub target), calling⟩)
    (enters : Part setting ⟨.execute lineBound (.gosub target), calling⟩
      ⟨.runFrame lineBound callee, before⟩)
    (returns : LineComes setting lineBound callee before calleeBegun
      ⟨.execute leaveBound .leave, leaving⟩)
    (innermost : leaving.frames = running :: below) (none : running.returns = []) :
    ∃ enough head, ∀ more ≥ enough, Resumes setting (more + bound) frame start begun head := by
  obtain ⟨begins, goesOn⟩ := calls.before
  have marked : callee.enteredByGosub = true := (List.cons.inj enters.entered).1
  obtain ⟨enough, last, lastGoesOn, lastFrames, runs⟩ :=
    runFrame_of_leave marked returns innermost none
  have frames : before.frames = calling.frames := by
    cases enters with
    | gosub _ expands _ _ => exact ((expand_still setting _).relates expands).frames
  obtain ⟨after, succeeds, remains⟩ := (enters.raise enough).succeeds rfl (by simp)
    (runs enough (Nat.le_refl _))
  obtain ⟨head, isHead, further⟩ := (calls.raise enough).succeeds succeeds
  have remained := remains_chains.join remains further
  have resumes : Resumes setting (enough + bound) frame start begun head :=
    ⟨isHead, remained.frames.trans (lastFrames.trans (frames.trans begins.frames)),
      remained.quits.trans lastGoesOn⟩
  refine ⟨enough, head, fun more least => ?_⟩
  have raised := resumes.raise (more - enough)
  rwa [← Nat.add_assoc, Nat.sub_add_cancel least] at raised

/-- What frames know of the way in which they were entered, in every state that a session comes to
while it runs inputs. -/
structure EntriesKnown (setting : Setting σ) (bound : Nat) (first : Session σ)
    (inputs : List Input) : Prop where
  /-- There is a way to every stage that tells what has started its frames. -/
  way {stage : Stage σ} (reached : Reached setting bound first inputs stage) :
    ∃ entries, ReachedBy setting bound first inputs entries stage
  /-- The frames that were started by a gosub are the ones that are marked, when a stage begins. -/
  begins {entries : List Entry} {stage : Stage σ}
    (reached : ReachedBy setting bound first inputs entries stage) : stage.entered = marks entries
  /-- They still are at each head of the loop of a frame, whichever scripts have taken it over. -/
  heads {entries : List Entry} {frameBound : Nat} {frame : Frame} {before head : Session σ}
    (reached : ReachedBy setting bound first inputs entries ⟨.runFrame frameBound frame, before⟩)
    (isHead : FrameHeads setting frameBound frame before head) : head.entered = marks entries
  /-- A stage leaves the frames marked as they were when it began. -/
  ends {stage : Stage σ} (reached : Reached setting bound first inputs stage) :
    Ends (stage.task.run setting) stage.before (fun _ after => after.entered = stage.before.entered)
      fun _ after => after.entered = stage.before.entered
  /-- Without a pending gosub inside the script, a return ends a frame that a gosub has started. -/
  finishes {entries : List Entry} {leaveBound : Nat} {leaving : Session σ} {running : Frame}
    {below : List Frame}
    (reached : ReachedBy setting bound first inputs (.gosub :: entries)
      ⟨.execute leaveBound .leave, leaving⟩)
    (innermost : leaving.frames = running :: below) (none : running.returns = []) :
    leave leaving = .ok true ({ leaving with
      frames := { running with cursor := running.lines.length } :: below }.addEvent
        (.moved (below.length + 1) .leave))
  /-- In any other frame it fails, and leaves the cursor and everything else as it is. -/
  refuses {entry : Entry} {entries : List Entry} {leaveBound : Nat} {leaving : Session σ}
    {running : Frame} {below : List Frame}
    (reached : ReachedBy setting bound first inputs (entry :: entries)
      ⟨.execute leaveBound .leave, leaving⟩)
    (other : entry ≠ .gosub) (innermost : leaving.frames = running :: below)
    (none : running.returns = []) :
    leave leaving = .error (.failed (.script .returnWithoutGosub)) leaving
  /-- After such a return, the caller of the script goes on at its next line. -/
  resumes {callerBound lineBound leaveBound : Nat} {caller callee running : Frame}
    {below : List Frame} {target : Text} {start begun calling before calleeBegun leaving : Session σ}
    (calls : LineRuns setting callerBound caller start begun
      ⟨.execute lineBound (.gosub target), calling⟩)
    (enters : Part setting ⟨.execute lineBound (.gosub target), calling⟩
      ⟨.runFrame lineBound callee, before⟩)
    (returns : LineComes setting lineBound callee before calleeBegun
      ⟨.execute leaveBound .leave, leaving⟩)
    (innermost : leaving.frames = running :: below) (none : running.returns = []) :
    ∃ enough head, ∀ more ≥ enough, Resumes setting (more + callerBound) caller start begun head
  /-- A caller that goes on begins the line after the one that called, if there is one. -/
  next {callerBound : Nat} {caller running : Frame} {start begun head : Session σ}
    {below : List Frame} {text : Text}
    (resumed : Resumes setting (callerBound + 1) caller start begun head)
    (innermost : begun.frames = running :: below)
    (isLine : running.lines[running.cursor]? = some text) :
    ∃ nextBegun, begin running below head = .ok () nextBegun ∧
      Part setting ⟨.runFrame (callerBound + 1) caller, start⟩ ⟨.runLine callerBound text, nextBegun⟩

/-- Whatever inputs are run, a return knows how its frame was entered. -/
theorem entries_known (setting : Setting σ) (bound : Nat) (first : Session σ)
    (none : first.frames = []) (inputs : List Input) : EntriesKnown setting bound first inputs where
  way reached := reached.entries
  begins reached := reached.entered none
  heads reached isHead := isHead.entered.trans (reached.entered none)
  ends {stage} _ := (Task.run_sameMarks stage.task stage.before).weaken (fun _ _ same => same.symm)
    (fun _ _ same => same.symm)
  finishes reached innermost noReturns := by
    have marked := reached.entered none
    rw [Stage.entered, Session.entered, innermost] at marked
    exact leave_of_entered innermost noReturns (List.cons.inj marked).1
  refuses reached other innermost noReturns := by
    have marked := reached.entered none
    rw [Stage.entered, Session.entered, innermost] at marked
    have unmarked := (List.cons.inj marked).1.trans (beq_false_of_ne other)
    exact leave_of_not_entered innermost noReturns unmarked
  resumes calls enters returns innermost noReturns :=
    resumes_of_leave calls enters returns innermost noReturns
  next resumed innermost isLine := resumed.next innermost isLine

/-- There is a script that lets another one take it over, which returns. -/
def library : Session (List (Except Text Text)) :=
  start quietDefaults []
    ⟨[], [(["lib.win"], encode "Goto next.win"), (["next.win"], encode "Return\nQuit")]⟩

/-- The script that a gosub has started was taken over by another one; it returns, and its caller
goes on. -/
theorem entries_known_library : ∃ begun leaving,
    ReachedBy .plain 5 library [.source "main" "Gosub lib.win\nPrint done"] [.gosub, .input]
      ⟨.execute 3 .leave, leaving⟩ ∧
    leaving.frames.map Frame.name = ["next.win", "main"] ∧ leaving.entered = [true, false] ∧
    (∃ after, leave leaving = .ok true after) ∧
    ∃ enough head, ∀ more ≥ enough, Resumes .plain (more + 5)
      (.ofSource "main" "Gosub lib.win\nPrint done" false) library begun head := by
  let main : Frame := .ofSource "main" "Gosub lib.win\nPrint done" false
  let lib : Frame := .ofSource "lib.win" "Goto next.win" true
  let next : Frame := .ofSource "next.win" "Return\nQuit" true
  let begun := finalState (begin main [] { library with frames := [main] })
  let entering := { begun with frames := lib :: begun.frames }
  let replaced := finalState (turn (runLine .plain 3) begun.frames.length entering)
  let leaving := finalState (begin next begun.frames replaced)
  have known := entries_known .plain 5 library rfl
    [.source "main" "Gosub lib.win\nPrint done"]
  have mainHead : FrameHeads .plain 5 main library { library with frames := [main] } := .first
  have mainLine : Part .plain ⟨.runFrame 5 main, library⟩ ⟨.runLine 4 "Gosub lib.win", begun⟩ :=
    .line mainHead rfl rfl rfl rfl
  have mainReads : Line.read begun.connection.files.isFile "Gosub lib.win" =
      .ok ⟨false, .gosub "lib.win"⟩ := rfl
  have mainCommand : Part .plain ⟨.runLine 4 "Gosub lib.win", begun⟩
      ⟨.execute 4 (.gosub "lib.win"), begun⟩ :=
    .command mainReads (silent_of_quiet (by decide) _ _ _)
  have same : begun.store.expand (begun.date Setting.plain.clock) "lib.win" = "lib.win" := by
    decide
  have expands : expand .plain "lib.win" begun = .ok "lib.win" begun :=
    congrArg (fun text => EStateM.Result.ok text begun) same
  have enters : Part .plain ⟨.execute 4 (.gosub "lib.win"), begun⟩ ⟨.runFrame 4 lib, begun⟩ :=
    .gosub rfl expands rfl rfl
  have turned : turn (runLine .plain 3) begun.frames.length entering = .ok none replaced :=
    eq_ok_of_outcome (by decide)
  have libHead : FrameHeads .plain 4 lib begun replaced := .next .first turned
  have goesOn : replaced.quits = false := by decide
  have running : replaced.frames = next :: begun.frames := by decide
  have libLine : Part .plain ⟨.runFrame 4 lib, begun⟩ ⟨.runLine 3 "Return", leaving⟩ :=
    .line libHead goesOn running rfl rfl
  have libReads : Line.read leaving.connection.files.isFile "Return" = .ok ⟨false, .leave⟩ := rfl
  have libCommand : Part .plain ⟨.runLine 3 "Return", leaving⟩ ⟨.execute 3 .leave, leaving⟩ :=
    .command libReads (silent_of_quiet (by decide) _ _ _)
  have innermost : leaving.frames = { next with cursor := 1 } :: begun.frames := rfl
  have inFirst : [.source "main" "Gosub lib.win\nPrint done"] =
      [] ++ Input.source "main" "Gosub lib.win\nPrint done" :: [] := rfl
  have reached : ReachedBy .plain 5 library [.source "main" "Gosub lib.win\nPrint done"]
      [.gosub, .input] ⟨.execute 3 .leave, leaving⟩ :=
    .part (.part (.part (.part (.part (.input inFirst rfl) mainLine) mainCommand) enters)
      libLine) libCommand
  exact ⟨begun, leaving, reached, rfl, rfl, ⟨_, known.finishes reached innermost rfl⟩,
    known.resumes ⟨mainLine, mainCommand, .refl⟩ enters ⟨libLine, libCommand, .refl⟩ innermost rfl⟩

end ManagementShell.Session

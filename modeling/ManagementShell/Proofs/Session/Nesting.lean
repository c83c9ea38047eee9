import ManagementShell.Proofs.Session.Bound

/-
This file shows how a session goes on after each part of what it is busy with.
-/

namespace ManagementShell.Session
open Text

variable {σ : Type} {setting : Setting σ}

/-- What a stage ends with. -/
def Stage.result (setting : Setting σ) (stage : Stage σ) :
    EStateM.Result Halt (Session σ) Bool := stage.task.run setting stage.before

/-- The session comes to the second stage while it is busy with the first one. -/
abbrev Comes (setting : Setting σ) : Stage σ → Stage σ → Prop :=
  Relation.ReflTransGen (Part setting)

/-- What follows on success is left out otherwise. -/
def andThen (action next : Action σ Bool) : Action σ Bool := do
  if ← action then next else pure false

/-- The context is dropped when an action is over, however it ends. -/
def dropContext : EStateM.Result Halt (Session σ) Bool → EStateM.Result Halt (Session σ) Bool
  | .ok done after => .ok done { after with context := none }
  | .error halt after => .error halt { after with context := none }

theorem finalState_dropContext (result : EStateM.Result Halt (Session σ) Bool) :
    finalState (dropContext result) = { finalState result with context := none } := by
  cases result <;> rfl

theorem withContext_eq (number : Nat) (action : Action σ Bool) (before : Session σ) :
    withContext number action before =
      dropContext (action { before with context := some number }) := by
  unfold withContext
  cases action { before with context := some number } <;> rfl

/-- What a poll does after a call that has been answered. -/
def Poll.goOn (setting : Setting σ) (poll : Poll) (started calls : Nat) : Action σ Bool := do
  match (← get).response.tree with
  | none => return false
  | some root =>
      if (poll.query.find? root.rootPlace).isSome then return true
      poll.wait setting started root
      poll.run setting started calls

/-- How the whole ends, when the part has ended: in the same way, or after what follows it on
success, or without the context that the part had. -/
inductive Sequel (setting : Setting σ) (whole stage : Stage σ) : Prop
  | same (ends : whole.result setting = stage.result setting)
  | operators {bound commands} (isOperators : whole.task = .executeAll bound commands ∨
        ∃ words condition, whole.task = .execute bound (.invoke words condition commands))
      (rest : List Command) (among : rest ⊆ commands)
      (ends : whole.result setting =
        andThen (stage.task.run setting) ((Task.executeAll bound rest).run setting) stage.before)
  | polls {current started calls} (isPoll : whole.task = .pollOn current started calls)
      (next : Action σ Bool)
      (ends : whole.result setting = andThen (stage.task.run setting) next stage.before)
  | context (ends : whole.result setting = dropContext (stage.result setting))

/-- Inside a line, a whole goes on after each of its parts in one of these ways. -/
theorem Part.sequel {whole stage : Stage σ} (part : Part setting whole stage)
    (notFrame : ∀ bound frame, whole.task ≠ .runFrame bound frame)
    (notLine : ∀ bound text, whole.task ≠ .runLine bound text) : Sequel setting whole stage := by
  cases part with
  | line => exact absurd rfl (notFrame _ _)
  | command => exact absurd rfl (notLine _ _)
  | @batch bound path before expanded ready frame expands loads =>
      refine .same ?_
      change Session.batch setting (runFrame setting bound) path before = _
      rw [Session.batch, bind_of_eq_ok expands, get_bind, loads]
      rfl
  | @gosub bound target before running below expanded ready path place frame runs expands leads
      enters =>
      refine .same ?_
      change jump setting (runFrame setting bound) target true before = _
      rw [jump, get_bind, runs]
      dsimp only
      rw [bind_of_eq_ok expands, leads]
      dsimp only
      rw [get_bind, Bool.true_or, enters]
      rfl
  | @context bound look inner before expanded ready found after expands isCondition finds =>
      refine .context ?_
      change inContext setting look (execute setting bound (runFrame setting bound) inner) before = _
      have narrows : ¬(splitOn expanded '=').length ≠ 2 := fun differs => differs isCondition
      rw [inContext, bind_of_eq_ok expands, onlyIf, if_neg narrows, pure_bind, bind_of_eq_ok finds]
      exact withContext_eq _ _ after
  | @conditional bound condition inner before ready isTrue =>
      refine .same ?_
      change (holds setting condition >>= _) before = _
      rw [bind_of_eq_ok isTrue]
      rfl
  | poll => exact .same rfl
  | @invoke bound words condition operators before =>
      refine .operators (.inr ⟨words, condition, rfl⟩) operators (List.Subset.refl _) ?_
      cases condition <;> rfl
  | @operators bound words condition operators before after answers =>
      refine .same ?_
      cases condition with
      | none => exact bind_of_eq_ok answers _
      | some condition => exact bind_of_eq_ok answers _
  | @first bound command rest before =>
      exact .operators (.inl rfl) rest (List.subset_cons_self _ _) rfl
  | @rest bound command rest before after succeeds => exact .same (bind_of_eq_ok succeeds _)
  | @pollOn bound condition words before expanded ready field value interval timeout method timed
      started begun expands isCondition times named starts =>
      refine .same ?_
      change Session.poll setting bound condition words before = _
      rw [Session.poll, bind_of_eq_ok expands, isCondition]
      dsimp only
      rw [bind_of_eq_ok times]
      dsimp only
      rw [onlyIf, if_neg named, pure_bind, bind_of_eq_ok starts]
      rfl
  | @call current started calls before =>
      refine .polls rfl (current.goOn setting started calls) ?_
      change Poll.run setting current started (calls + 1) before = _
      rw [pollRun_succ]
      exact congrFun (bind_congr fun answered => by cases answered <;> rfl) before
  | @again current started calls before answered root ready answers isTree differs waits =>
      refine .same ?_
      change Poll.run setting current started (calls + 1) before = _
      rw [pollRun_succ, bind_of_eq_ok answers, if_neg (by decide), get_bind, isTree]
      dsimp only
      rw [differs, Option.isSome_none, if_neg (by decide), bind_of_eq_ok waits]
      rfl

theorem runLine_of_read {bound : Nat} {text : Text} {before ready : Session σ} {line : Line}
    (reads : Line.read before.connection.files.isFile text = .ok line)
    (echoes : onlyIf (!line.command.isNothing ∧ callLevel < before.store.verbosityLevel)
      (echo setting text) before = .ok () ready) :
    runLine setting bound text before = settle line.command.name line.ignoresFailure
      (execute setting bound (runFrame setting bound) line.command) ready := by
  rw [runLine, executeLine, get_bind, reads]
  exact bind_of_eq_ok echoes _

/-- The parts of a frame are lines. -/
theorem Part.isLine {bound : Nat} {frame : Frame} {before : Session σ} {stage : Stage σ}
    (part : Part setting ⟨.runFrame bound frame, before⟩ stage) :
    ∃ lineBound text begun, stage = ⟨.runLine lineBound text, begun⟩ := by
  cases part
  exact ⟨_, _, _, rfl⟩

/-- The frame is taken off when an action is over, however it ends. -/
def leaving (before : Session σ) :
    EStateM.Result Halt (Session σ) Bool → EStateM.Result Halt (Session σ) Bool
  | .ok done after => .ok done (leaveFrame before after)
  | .error halt after => .error halt (leaveFrame before after)

theorem finalState_leaving (before : Session σ) (result : EStateM.Result Halt (Session σ) Bool) :
    finalState (leaving before result) = leaveFrame before (finalState result) := by
  cases result <;> rfl

theorem inFrame_eq (frame : Frame) (body : Nat → Action σ Bool) (before : Session σ) :
    inFrame frame body before = leaving before
      (body before.frames.length { before with frames := frame :: before.frames }) := by
  unfold inFrame
  cases body before.frames.length { before with frames := frame :: before.frames } <;> rfl

/-- A turn at a line runs the line. -/
theorem turn_of_line {line : Text → Action σ Bool} {base : Nat} {head begun : Session σ}
    {innermost : Frame} {below : List Frame} {text : Text} (goesOn : head.quits = false)
    (above : base < head.frames.length) (running : head.frames = innermost :: below)
    (isLine : innermost.lines[innermost.cursor]? = some text)
    (begins : begin innermost below head = .ok () begun) :
    turn line base head =
      (do if ← line text then pure none else pure (some false) : Action σ (Option Bool)) begun := by
  have isRun : ¬(head.quits = true ∨ head.frames.length ≤ base) := by
    simp [goesOn, above]
  rw [turn, get_bind, if_neg isRun, running]
  dsimp only
  rw [isLine]
  exact bind_of_eq_ok begins _

/-- While a frame runs, it is the only one above those that were there. -/
theorem FrameHeads.above {bound : Nat} {frame : Frame} {before head : Session σ}
    (isHead : FrameHeads setting bound frame before head) :
    before.frames.length < head.frames.length := by
  cases bound with
  | zero => exact isHead.elim
  | succ bound =>
      have lineEnds : LineEnds (runLine setting bound) := lineEnds_of_ran (runFrame_ran setting bound)
      obtain ⟨innermost, same⟩ := Heads.innermost lineEnds isHead ⟨frame, rfl⟩
      simp [same]

/-- To run a frame that comes to a head of its loop is to go on from there, if the bound is great
enough. -/
theorem FrameHeads.runs {bound : Nat} {frame : Frame} {before head : Session σ}
    (isHead : FrameHeads setting (bound + 1) frame before head) :
    ∃ enough, ∀ more ≥ enough, ∃ count, runFrame setting (more + (bound + 1)) frame before =
      leaving before
        (drive (runLine setting (more + bound)) before.frames.length (count + 1) head) := by
  obtain ⟨turns, same⟩ := Heads.drive isHead
  refine ⟨turns + 1, fun more least => ⟨more + bound - turns - 1, ?_⟩⟩
  have extended (text : Text) := runLine_extended setting (Nat.le_add_left bound more) text
  have count : more + bound = more + bound - turns - 1 + 1 + turns := by omega
  rw [← same extended, ← count]
  exact inFrame_eq frame _ before

end ManagementShell.Session

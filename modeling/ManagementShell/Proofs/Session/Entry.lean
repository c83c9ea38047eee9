import ManagementShell.Proofs.Session.Nesting

/-
This file follows how frames are entered, through any jumps between scripts, and shows that a return
knows whether its frame was entered by a gosub.
-/

namespace ManagementShell.Session
open Text

variable {σ : Type}

/-- Which of the frames that run are marked as entered by a gosub, the innermost first. -/
def entered (session : Session σ) : List Bool := session.frames.map Frame.enteredByGosub

/-- Each frame that runs is marked as before. -/
abbrev SameMarks : Session σ → Session σ → Prop := InvImage Eq entered

theorem sameMarks_chains : Chains (SameMarks (σ := σ)) where
  stay _ := rfl
  join := Eq.trans

theorem sameMarks_of_frames {before after : Session σ} (frames : after.frames = before.frames) :
    SameMarks before after := (congrArg (List.map Frame.enteredByGosub) frames).symm

theorem sameMarks_of_innermost {before after : Session σ} {frame last : Frame}
    {below : List Frame} (innermost : before.frames = frame :: below)
    (moved : after.frames = last :: below) (same : last.enteredByGosub = frame.enteredByGosub) :
    SameMarks before after := by
  simp [InvImage, entered, innermost, moved, same]

theorem sameMarks_of_still {α : Type} {action : Action σ α} (still : Leads Still action) :
    Leads SameMarks action := fun session =>
  (still session).weaken (fun _ _ step => sameMarks_of_frames step.frames)
    (fun _ _ step => sameMarks_of_frames step.frames)

theorem sameMarks_of_remains {α : Type} {action : Action σ α} (remains : Leads Remains action) :
    Leads SameMarks action := fun session =>
  (remains session).weaken (fun _ _ step => sameMarks_of_frames step.frames)
    (fun _ _ step => sameMarks_of_frames step.frames)

/-- A frame is marked as it is asked for. -/
theorem load_entered (files : FileTree) (path : Text) (enteredByGosub : Bool) :
    Gives (Frame.load files path enteredByGosub)
      (fun frame => frame.enteredByGosub = enteredByGosub) fun _ => True := by
  unfold Frame.load
  split
  · rfl
  · trivial

theorem enter_entered (files : FileTree) (path place : Text) (enteredByGosub : Bool) :
    Gives (enter files path place enteredByGosub)
      (fun frame => frame.enteredByGosub = enteredByGosub) fun _ => True := by
  unfold enter
  split
  · trivial
  · rename_i frame loaded
    have marked := gives_of_eq_ok loaded (load_entered _ _ _)
    split
    · exact marked
    · split
      · exact marked
      · trivial

theorem returned?_entered {frame after : Frame} (isReturned : returned? frame = some after) :
    after.enteredByGosub = frame.enteredByGosub := by
  unfold returned? at isReturned
  split at isReturned
  · cases isReturned
    rfl
  · simp only [Option.ite_none_right_eq_some, Option.some.injEq] at isReturned
    obtain ⟨_, rfl⟩ := isReturned
    rfl

theorem leave_sameMarks : Leads (SameMarks (σ := σ)) leave := by
  intro session
  apply ends_leave
  case fails => exact fun _ => sameMarks_chains.stay session
  case leaves =>
    exact fun _ _ _ innermost returned =>
      sameMarks_of_innermost innermost rfl (returned?_entered returned)

section

variable {setting : Setting σ} {calls : Nat} {runFrame : Frame → Action σ Bool}

/-- A script that takes a frame over is marked as the one before it. -/
theorem jump_sameMarks (nested : ∀ frame, Leads SameMarks (runFrame frame)) (target : Text)
    (isGosub : Bool) : Leads SameMarks (jump setting runFrame target isGosub) := by
  intro session
  apply ends_jump
  case fails => exact fun _ => sameMarks_chains.stay session
  case runs => exact fun _ _ other _ _ => nested other session
  case replaces =>
    intro frame below _ _ other _ innermost entered
    have marked := gives_of_eq_ok entered (enter_entered _ _ _ _)
    exact sameMarks_of_innermost innermost rfl marked
  case moves => exact fun _ _ _ _ innermost _ => sameMarks_of_innermost innermost rfl rfl

theorem batch_sameMarks (nested : ∀ frame, Leads SameMarks (runFrame frame)) (path : Text) :
    Leads SameMarks (batch setting runFrame path) := by
  apply Leads.bind sameMarks_chains (sameMarks_of_still (expand_still setting path))
  intro expanded
  apply Leads.bind sameMarks_chains (leads_get sameMarks_chains)
  intro session
  exact Leads.bind sameMarks_chains (sameMarks_of_still (check_still _)) nested

mutual

/-- The induction is on the command: inner commands and operators are parts of it. -/
theorem execute_sameMarks (nested : ∀ frame, Leads SameMarks (runFrame frame))
    (command : Command) : Leads SameMarks (execute setting calls runFrame command) := by
  match command with
  | .nothing | .clear | .count _ | .find _ _ _ | .findAll _ _ | .log _ _ | .print _ | .report _ _
  | .listVariables | .assign _ _ | .evaluate _ _ | .sleep _ | .unset _ =>
      exact sameMarks_of_still (execute_still setting calls runFrame rfl)
  | .batch path => exact batch_sameMarks nested path
  | .context look inner =>
      apply Leads.bind sameMarks_chains (sameMarks_of_still (expand_still setting look))
      intro expanded
      apply Leads.bind sameMarks_chains
        (sameMarks_of_still (onlyIf_leads still_chains (fail_still _)))
      intro _
      apply Leads.bind sameMarks_chains (sameMarks_of_still (find_still setting expanded none none))
      intro found
      cases found with
      | none => exact sameMarks_of_still (fail_still _)
      | some found =>
          intro before
          exact withContext_ends ((execute_sameMarks nested inner _).weaken (fun _ _ same => same)
            (fun _ _ same => same))
  | .gosub target => exact jump_sameMarks nested target true
  | .goto target => exact jump_sameMarks nested target false
  | .conditional condition inner =>
      apply Leads.bind sameMarks_chains (sameMarks_of_still (holds_still setting condition))
      intro holds
      split
      · exact execute_sameMarks nested inner
      · exact leads_pure sameMarks_chains _
  | .quit =>
      exact Leads.bind sameMarks_chains (leads_modify fun _ => sameMarks_of_frames rfl) fun _ =>
        leads_pure sameMarks_chains _
  | .leave => exact leave_sameMarks
  | .poll condition words => exact sameMarks_of_remains (poll_remains setting calls condition words)
  | .invoke words condition operators =>
      have operate (answered : Bool) : Leads SameMarks
          (if answered then executeAll setting calls runFrame operators else pure false) := by
        split
        · exact executeAll_sameMarks nested operators
        · exact leads_pure sameMarks_chains _
      cases condition with
      | none =>
          exact Leads.bind sameMarks_chains (sameMarks_of_remains (call_remains setting words))
            operate
      | some condition =>
          exact Leads.bind sameMarks_chains
            (sameMarks_of_remains (poll_remains setting calls condition words)) operate

theorem executeAll_sameMarks (nested : ∀ frame, Leads SameMarks (runFrame frame))
    (commands : List Command) :
    Leads SameMarks (executeAll setting calls runFrame commands) := by
  match commands with
  | [] => exact leads_pure sameMarks_chains _
  | first :: rest =>
      apply Leads.bind sameMarks_chains (execute_sameMarks nested first)
      intro succeeds
      split
      · exact executeAll_sameMarks nested rest
      · exact leads_pure sameMarks_chains _

end

end

variable {setting : Setting σ}

theorem runFrame_sameMarks (bound : Nat) (frame : Frame) :
    Leads SameMarks (runFrame setting bound frame) := fun session =>
  (runFrame_ran setting bound frame session).weaken
    (fun _ _ ⟨_, ran⟩ => sameMarks_of_frames ran.restored.frames)
    (fun _ _ ⟨_, _, ran⟩ => sameMarks_of_frames ran.restored.frames)

theorem runLine_sameMarks (bound : Nat) (text : Text) :
    Leads SameMarks (runLine setting bound text) := by
  apply Leads.bind sameMarks_chains (leads_get sameMarks_chains)
  intro session
  have reports (message : Text) : Leads SameMarks (reportFailure message : Action σ Unit) :=
    sameMarks_of_still (reportFailure_still message)
  split
  · exact Leads.bind sameMarks_chains (reports _) fun _ => leads_pure sameMarks_chains _
  · exact Leads.bind sameMarks_chains
      (sameMarks_of_still (onlyIf_leads still_chains (echo_still setting text)))
      fun _ => settle_leads sameMarks_chains reports
        (execute_sameMarks (runFrame_sameMarks bound) _) _ _

/-- Whatever a session is busy with, the frames that run are marked as before when it is over. -/
theorem Task.run_sameMarks (task : Task) : Leads SameMarks (task.run setting) := by
  cases task with
  | runFrame bound frame => exact runFrame_sameMarks bound frame
  | runLine bound text => exact runLine_sameMarks bound text
  | execute bound command => exact execute_sameMarks (runFrame_sameMarks bound) command
  | executeAll bound commands => exact executeAll_sameMarks (runFrame_sameMarks bound) commands
  | poll bound condition words =>
      exact sameMarks_of_remains (poll_remains setting bound condition words)
  | pollOn current started calls =>
      exact sameMarks_of_remains (pollRun_remains setting current started calls)
  | call words => exact sameMarks_of_remains (call_remains setting words)

theorem turn_sameMarks {line : Text → Action σ Bool} (lines : ∀ text, Leads SameMarks (line text))
    (base : Nat) : Leads SameMarks (turn line base) := by
  intro session
  have stays := sameMarks_chains.stay session
  rw [turn, ends_bind, ends_get]
  split
  · exact stays
  · split
    · exact stays
    · rename_i frame below innermost
      split
      · exact stays
      · rename_i text _
        rw [ends_bind]
        have begins : Ends (begin frame below) session (fun _ begun => SameMarks session begun)
            fun _ begun => SameMarks session begun := sameMarks_of_innermost innermost rfl rfl
        refine begins.weaken (fun _ begun same => ?_) (fun _ _ same => same)
        have concludes (succeeds : Bool) : Leads SameMarks
            (if succeeds then pure none else pure (some false) : Action σ (Option Bool)) := by
          split
          · exact leads_pure sameMarks_chains _
          · exact leads_pure sameMarks_chains _
        exact (Leads.bind sameMarks_chains (lines text) concludes).after sameMarks_chains same

/-- While a frame runs, it and the frames below it are marked as they were when it began. -/
theorem FrameHeads.entered {bound : Nat} {frame : Frame} {before head : Session σ}
    (isHead : FrameHeads setting bound frame before head) :
    head.entered = frame.enteredByGosub :: before.entered := by
  cases bound with
  | zero => exact isHead.elim
  | succ bound =>
      induction isHead with
      | first => rfl
      | next _ turned inductionHypothesis =>
          exact ((turn_sameMarks (runLine_sameMarks bound) _).relates turned).symm.trans
            inductionHypothesis

/-- What starts the run of a frame. -/
inductive Entry where
  | input
  | batch
  | gosub
  deriving DecidableEq, Repr

/-- What starts the frames that the task runs as a part of it. -/
def Task.opens? : Task → Option Entry
  | .execute _ (.batch _) => some .batch
  | .execute _ (.gosub _) => some .gosub
  | _ => none

/-- What starts the frame that the input runs. -/
def Input.opens? : Input → Option Entry
  | .typed _ => none
  | .source _ _ | .script _ => some .input

/-- The session comes to the stage while it runs one of the inputs, through frames that were started
so, the innermost first. -/
inductive ReachedBy (setting : Setting σ) (bound : Nat) (first : Session σ) (inputs : List Input) :
    List Entry → Stage σ → Prop
  | input {early late : List Input} {input : Input} {task : Task}
      (isInput : inputs = early ++ input :: late)
      (runs : task ∈ input.task? bound (afterAll setting bound first early).connection.files) :
      ReachedBy setting bound first inputs input.opens?.toList
        ⟨task, afterAll setting bound first early⟩
  | part {entries : List Entry} {whole stage : Stage σ}
      (reached : ReachedBy setting bound first inputs entries whole)
      (part : Part setting whole stage) :
      ReachedBy setting bound first inputs (whole.task.opens?.toList ++ entries) stage

/-- The marks of the frames that run, and of the one that the task is to run. -/
def Stage.entered (stage : Stage σ) : List Bool :=
  match stage.task with
  | .runFrame _ frame => frame.enteredByGosub :: stage.before.entered
  | _ => stage.before.entered

/-- The frames that were started by a gosub are the ones that are marked. -/
def marks (entries : List Entry) : List Bool := entries.map (· == .gosub)

/-- A part begins with the frames of the whole and the one that the whole starts. -/
theorem Part.entered {whole stage : Stage σ} (part : Part setting whole stage) :
    stage.entered = marks whole.task.opens?.toList ++ whole.entered := by
  have expanded {text result : Text} {before ready : Session σ}
      (expands : expand setting text before = .ok result ready) : ready.entered = before.entered :=
    (sameMarks_of_still (expand_still setting text)).relates expands |>.symm
  cases part with
  | line isHead _ running _ begins =>
      cases begins
      have marked := isHead.entered
      rw [Session.entered, running] at marked
      exact marked
  | command _ echoes =>
      exact ((sameMarks_of_still (onlyIf_leads still_chains (echo_still setting _))).relates
        echoes).symm
  | batch expands loads =>
      have marked := gives_of_eq_ok loads (load_entered _ _ _)
      exact congrArg₂ List.cons marked (expanded expands)
  | gosub _ expands _ enters =>
      have marked := gives_of_eq_ok enters (enter_entered _ _ _ _)
      exact congrArg₂ List.cons marked (expanded expands)
  | context expands _ finds =>
      exact ((sameMarks_of_still (find_still setting _ _ _)).relates finds).symm.trans
        (expanded expands)
  | conditional isTrue =>
      exact ((sameMarks_of_still (holds_still setting _)).relates isTrue).symm
  | poll => rfl
  | @invoke bound words condition operators before =>
      cases condition <;> rfl
  | operators answers => exact ((Task.run_sameMarks _).relates answers).symm
  | first => rfl
  | rest succeeds => exact ((Task.run_sameMarks _).relates succeeds).symm
  | pollOn expands _ times _ starts =>
      exact (((sameMarks_of_still (lookAtClock_still _)).relates starts).symm.trans
        ((sameMarks_of_still (timing_still setting _)).relates times).symm).trans (expanded expands)
  | call => rfl
  | again answers _ _ waits =>
      exact ((sameMarks_of_still (wait_still setting _ _ _)).relates waits).symm.trans
        ((sameMarks_of_remains (call_remains setting _)).relates answers).symm

theorem marks_append (first second : List Entry) :
    marks (first ++ second) = marks first ++ marks second := List.map_append

theorem input_sameMarks (bound : Nat) (input : Input) :
    Leads SameMarks (input.run setting bound) := by
  cases input with
  | typed line => exact runLine_sameMarks bound line
  | source name text => exact runFrame_sameMarks bound _
  | script path =>
      apply Leads.bind sameMarks_chains (leads_get sameMarks_chains)
      intro session
      split
      · exact runFrame_sameMarks bound _
      · exact Leads.bind sameMarks_chains (sameMarks_of_still (emit_still rfl)) fun _ =>
          leads_pure sameMarks_chains _

/-- What an input runs is marked as no gosub. -/
theorem Input.task?_entered {bound : Nat} {input : Input} {task : Task} {before : Session σ}
    (runs : task ∈ input.task? bound before.connection.files) :
    Stage.entered ⟨task, before⟩ = marks input.opens?.toList ++ before.entered := by
  cases input with
  | typed | source =>
      cases runs
      rfl
  | script path =>
      obtain ⟨frame, loads, rfl⟩ := Input.task?_script.mp runs
      have marked := gives_of_eq_ok loads (load_entered _ _ _)
      exact congrArg₂ List.cons marked rfl

/-- The frames that were started by a gosub are the ones that are marked. The induction is on the
way to the stage. -/
theorem ReachedBy.entered {bound : Nat} {first : Session σ} {inputs : List Input}
    {entries : List Entry} {stage : Stage σ}
    (reached : ReachedBy setting bound first inputs entries stage) (none : first.frames = []) :
    stage.entered = marks entries := by
  induction reached with
  | @input early late input task isInput runs =>
      have ended : (afterAll setting bound first early).entered = [] := by
        rw [← afterAll_relates sameMarks_chains (input_sameMarks bound) first early, Session.entered,
          none, List.map_nil]
      rw [Input.task?_entered runs, ended, List.append_nil]
  | part _ part inductionHypothesis => rw [part.entered, inductionHypothesis, marks_append]

/-- There is such a way to every stage that the session comes to. -/
theorem Reached.entries {bound : Nat} {first : Session σ} {inputs : List Input} {stage : Stage σ}
    (reached : Reached setting bound first inputs stage) :
    ∃ entries, ReachedBy setting bound first inputs entries stage := by
  induction reached with
  | input isInput runs => exact ⟨_, .input isInput runs⟩
  | part _ part inductionHypothesis =>
      obtain ⟨entries, way⟩ := inductionHypothesis
      exact ⟨_, .part way part⟩

end ManagementShell.Session

import ManagementShell.Proofs.Session.Nesting

/-
This file shows that nothing goes on after a quit: the scripts and the lines that are still busy come
to their ends, but no line begins and the peer is not asked.
-/

namespace ManagementShell

/-- A line of a script begins, or the peer is asked. -/
def Event.isProgress : Event → Bool
  | .line _ _ | .sent _ => true
  | _ => false

theorem Event.isProgress_of_isOutput {event : Event} (output : event.isOutput = true) :
    event.isProgress = false := by
  cases event <;> first | rfl | cases output

namespace Session
open Text

variable {σ : Type} {setting : Setting σ}

/-- The shell is about to be left, and nothing has gone on. -/
structure Rests (before after : Session σ) : Prop where
  quits : after.quits = true
  events : before.connection.Adds (fun event => event.isProgress = false) after.connection

/-- Where the shell was about to be left before, nothing has gone on. -/
def Quiesces (before after : Session σ) : Prop := before.quits = true → before.Rests after

theorem Rests.join {before middle after : Session σ} (rests : before.Rests middle)
    (quiesces : middle.Quiesces after) : before.Rests after :=
  ⟨(quiesces rests.quits).quits,
    (Connection.adds_chains _).join rests.events (quiesces rests.quits).events⟩

theorem quiesces_chains : Chains (Quiesces (σ := σ)) where
  stay _ quits := ⟨quits, (Connection.adds_chains _).stay _⟩
  join first second quits := (first quits).join second

theorem Still.quiesces {before after : Session σ} (still : before.Still after) :
    before.Quiesces after := by
  obtain ⟨added, grows, output⟩ := still.events
  exact fun quits => ⟨still.quits.trans quits, added, grows,
    fun event member => Event.isProgress_of_isOutput (output event member)⟩

theorem quiesces_of_still {α : Type} {action : Action σ α} (still : Leads Still action) :
    Leads Quiesces action := fun before =>
  (still before).weaken (fun _ _ step => step.quiesces) (fun _ _ step => step.quiesces)

/-- One event has been added in which nothing goes on. -/
theorem quiesces_of_event {before after : Session σ} (event : Event)
    (rests : event.isProgress = false) (quits : after.quits = before.quits)
    (events : after.connection.events = before.connection.events ++ [event]) :
    before.Quiesces after :=
  fun isQuit => ⟨quits.trans isQuit, [event], events, by simpa using rests⟩

theorem drive_of_quits (line : Text → Action σ Bool) (base count : Nat) {before : Session σ}
    (quits : before.quits = true) :
    Ends (drive line base count) before (fun _ after => after = before)
      fun _ after => after = before := by
  cases count with
  | zero => rfl
  | succ count =>
      rw [drive, ends_bind, turn, ends_bind, ends_get, if_pos (.inl quits), ends_pure]
      rfl

theorem Rests.leaveFrame {first before after : Session σ} (rests : first.Rests after) :
    first.Rests (leaveFrame before after) := ⟨rests.quits, rests.events⟩

/-- A frame ends at once. -/
theorem runFrame_quiesces (bound : Nat) (frame : Frame) :
    Leads Quiesces (runFrame setting bound frame) := by
  intro before
  cases bound with
  | zero => exact quiesces_chains.stay before
  | succ bound =>
      rw [Ends, runFrame]
      refine inFrame_ends ?_
      by_cases quits : before.quits = true
      · have opened : { before with frames := frame :: before.frames }.quits = true := quits
        refine (drive_of_quits _ _ _ opened).weaken ?_ ?_
        · rintro _ _ rfl
          exact fun _ => ⟨quits, (Connection.adds_chains _).stay _⟩
        · rintro _ _ rfl
          exact fun _ => ⟨quits, (Connection.adds_chains _).stay _⟩
      · exact (ends_anything _ _).weaken (fun _ _ _ isQuit => absurd isQuit quits)
          (fun _ _ _ isQuit => absurd isQuit quits)

theorem batch_quiesces (bound : Nat) (path : Text) :
    Leads Quiesces (batch setting (runFrame setting bound) path) := by
  apply Leads.bind quiesces_chains (quiesces_of_still (expand_still setting path))
  intro expanded
  apply Leads.bind quiesces_chains (leads_get quiesces_chains)
  intro session
  exact Leads.bind quiesces_chains (quiesces_of_still (check_still _)) (runFrame_quiesces bound)

theorem jump_quiesces (bound : Nat) (target : Text) (isGosub : Bool) :
    Leads Quiesces (jump setting (runFrame setting bound) target isGosub) := by
  intro session
  apply ends_jump
  case fails => exact fun _ => quiesces_chains.stay session
  case runs => exact fun _ _ other _ _ => runFrame_quiesces bound other session
  case replaces =>
    exact fun _ below _ _ _ _ _ _ =>
      quiesces_of_event (.moved (below.length + 1) .replace) rfl rfl rfl
  case moves =>
    exact fun _ below _ _ _ _ =>
      quiesces_of_event (.moved (below.length + 1) (if isGosub then .gosub else .goto)) rfl rfl rfl

theorem Rests.withoutContext {first after : Session σ} (rests : first.Rests after) :
    first.Rests { after with context := none } := ⟨rests.quits, rests.events⟩

theorem inContext_quiesces (look : Text) {inner : Action σ Bool} (quiesces : Leads Quiesces inner) :
    Leads Quiesces (inContext setting look inner) := by
  apply Leads.bind quiesces_chains (quiesces_of_still (expand_still setting look))
  intro expanded
  apply Leads.bind quiesces_chains (quiesces_of_still (onlyIf_leads still_chains (fail_still _)))
  intro _
  apply Leads.bind quiesces_chains (quiesces_of_still (find_still setting expanded none none))
  intro found
  cases found with
  | none => exact quiesces_of_still (fail_still _)
  | some found =>
      intro before
      refine withContext_ends ((quiesces _).weaken ?_ ?_)
      · exact fun _ _ rests quits => ⟨(rests quits).quits, (rests quits).events⟩
      · exact fun _ _ rests quits => ⟨(rests quits).quits, (rests quits).events⟩

/-- The induction is on the operation: inner commands are parts of it. -/
theorem execute_quiesces (calls bound : Nat) (command : Command)
    (operation : command.isOperation = true) :
    Leads Quiesces (execute setting calls (runFrame setting bound) command) := by
  match command with
  | .nothing | .clear | .count _ | .find _ _ _ | .findAll _ _ | .log _ _ | .print _ | .report _ _
  | .listVariables | .assign _ _ | .evaluate _ _ | .sleep _ | .unset _ =>
      exact quiesces_of_still (execute_still setting calls (runFrame setting bound) rfl)
  | .batch path => exact batch_quiesces bound path
  | .context look inner =>
      rw [Command.isOperation] at operation
      exact inContext_quiesces look (execute_quiesces calls bound inner operation)
  | .gosub target => exact jump_quiesces bound target true
  | .goto target => exact jump_quiesces bound target false
  | .conditional condition inner =>
      rw [Command.isOperation] at operation
      apply Leads.bind quiesces_chains (quiesces_of_still (holds_still setting condition))
      intro holds
      split
      · exact execute_quiesces calls bound inner operation
      · exact leads_pure quiesces_chains _
  | .quit =>
      exact Leads.bind quiesces_chains
        (leads_modify fun _ _ => ⟨rfl, (Connection.adds_chains _).stay _⟩)
        fun _ => leads_pure quiesces_chains _
  | .leave | .poll _ _ | .invoke _ _ _ => cases operation

theorem executeAll_quiesces (calls bound : Nat) (commands : List Command)
    (operations : ∀ command ∈ commands, command.isOperation = true) :
    Leads Quiesces (executeAll setting calls (runFrame setting bound) commands) := by
  induction commands with
  | nil => exact leads_pure quiesces_chains _
  | cons first rest inductionHypothesis =>
      rw [List.forall_mem_cons] at operations
      apply Leads.bind quiesces_chains (execute_quiesces calls bound first operations.1)
      intro succeeds
      split
      · exact inductionHypothesis operations.2
      · exact leads_pure quiesces_chains _

namespace Task

/-- The commands of the task are those of a line that has been read, or its operators. -/
def IsRead : Task → Prop
  | .execute _ command => command.isWellFormed = true
  | .executeAll _ commands => ∀ command ∈ commands, command.isOperation = true
  | _ => True

/-- The task calls the peer, once or more often. -/
def isCalling : Task → Bool
  | .poll _ _ _ | .pollOn _ _ _ | .call _ => true
  | _ => false

end Task

theorem Part.isRead {whole stage : Stage σ} (part : Part setting whole stage)
    (isRead : whole.task.IsRead) : stage.task.IsRead := by
  cases part with
  | command reads =>
      have wellFormed := gives_of_eq_ok reads (Line.read_isWellFormed _ _)
      exact wellFormed
  | context => simpa only [Task.IsRead, Command.isWellFormed] using isRead
  | conditional => simpa only [Task.IsRead, Command.isWellFormed] using isRead
  | @invoke bound words condition operators before => cases condition <;> trivial
  | operators => exact Command.operations_of_isWellFormed isRead
  | first => exact Command.isWellFormed_of_isOperation (isRead _ List.mem_cons_self)
  | rest => exact fun command member => isRead command (.tail _ member)
  | line | batch | gosub | poll | pollOn | call | again => trivial

theorem Part.isCalling {whole stage : Stage σ} (part : Part setting whole stage)
    (calling : whole.task.isCalling = true) : stage.task.isCalling = true := by
  cases part with
  | pollOn | call | again => rfl
  | line | command | batch | gosub | context | conditional | poll | invoke | operators | first
  | rest => cases calling

theorem Comes.isCalling {whole stage : Stage σ} (comes : Comes setting whole stage)
    (calling : whole.task.isCalling = true) : stage.task.isCalling = true := by
  induction comes with
  | refl => exact calling
  | tail _ part inductionHypothesis => exact part.isCalling inductionHypothesis

/-- However the stage ends, nothing has gone on since the quit. -/
def Stage.Rests (setting : Setting σ) (quitting : Session σ) (stage : Stage σ) : Prop :=
  Ends (stage.task.run setting) stage.before (fun _ after => quitting.Rests after)
    fun _ after => quitting.Rests after

theorem Stage.rests_iff {stage : Stage σ} {quitting : Session σ} :
    stage.Rests setting quitting ↔ quitting.Rests (finalState (stage.result setting)) :=
  ends_iff_finalState

theorem rests_andThen {quitting before : Session σ} {action next : Action σ Bool}
    (rests : Ends action before (fun _ after => quitting.Rests after)
      fun _ after => quitting.Rests after)
    (quiesces : Leads Quiesces next) :
    Ends (andThen action next) before (fun _ after => quitting.Rests after)
      fun _ after => quitting.Rests after := by
  rw [andThen, ends_bind]
  refine rests.weaken (fun succeeds middle rested => ?_) (fun _ _ rested => rested)
  split
  · exact (quiesces middle).weaken (fun _ _ => rested.join) (fun _ _ => rested.join)
  · exact rested

theorem Sequel.rests {whole stage : Stage σ} {quitting : Session σ}
    (sequel : Sequel setting whole stage) (isRead : whole.task.IsRead)
    (noCalls : whole.task.isCalling = false) (rests : stage.Rests setting quitting) :
    whole.Rests setting quitting := by
  cases sequel with
  | same ends => rwa [Stage.rests_iff, ends, ← Stage.rests_iff]
  | @operators bound commands isOperators rest among ends =>
      have operations : ∀ command ∈ commands, command.isOperation = true := by
        rcases isOperators with same | ⟨words, condition, same⟩
        · rwa [same] at isRead
        · rw [same] at isRead
          exact Command.operations_of_isWellFormed isRead
      have quiesces : Leads Quiesces (executeAll setting bound (runFrame setting bound) rest) :=
        executeAll_quiesces bound bound rest fun command member => operations command (among member)
      rw [Stage.rests_iff, ends]
      exact ends_iff_finalState.mp (rests_andThen rests quiesces)
  | polls isPoll =>
      rw [isPoll] at noCalls
      cases noCalls
  | context ends =>
      rw [Stage.rests_iff, ends, finalState_dropContext]
      exact (Stage.rests_iff.mp rests).withoutContext

theorem line_rests {bound : Nat} {text : Text} {before quitting : Session σ} {stage : Stage σ}
    (part : Part setting ⟨.runLine bound text, before⟩ stage) (rests : stage.Rests setting quitting) :
    Stage.Rests setting quitting ⟨.runLine bound text, before⟩ := by
  cases part with
  | @command _ _ _ line ready reads echoes =>
      have reports (message : Text) {middle : Session σ} (rested : quitting.Rests middle) :
          Ends (reportFailure message) middle (fun _ after => quitting.Rests after)
            fun _ after => quitting.Rests after :=
        (reportFailure_still message middle).weaken (fun _ _ still => rested.join still.quiesces)
          (fun _ _ still => rested.join still.quiesces)
      have settled := settle_ends reports rests line.command.name line.ignoresFailure
      rw [Stage.rests_iff, Stage.result, Task.run, runLine_of_read reads echoes]
      exact ends_iff_finalState.mp settled

/-- After the line in which a quit has been executed, its frame ends. -/
theorem frame_rests {bound lineBound : Nat} {frame : Frame} {before begun quitting : Session σ}
    {text : Text} (part : Part setting ⟨.runFrame bound frame, before⟩ ⟨.runLine lineBound text, begun⟩)
    {least : Nat}
    (rests : ∀ more ≥ least, Stage.Rests setting quitting ⟨.runLine (more + lineBound) text, begun⟩) :
    ∃ enough, ∀ more ≥ enough,
      Stage.Rests setting quitting ⟨.runFrame (more + bound) frame, before⟩ := by
  cases part with
  | @line _ _ _ head innermost below _ _ isHead goesOn running isLine begins =>
      obtain ⟨enough, runs⟩ := isHead.runs
      refine ⟨max enough least, fun more atLeast => ?_⟩
      obtain ⟨count, same⟩ := runs more ((Nat.le_max_left _ _).trans atLeast)
      have turned : turn (runLine setting (more + lineBound)) before.frames.length head = _ :=
        turn_of_line goesOn isHead.above running isLine begins
      have lineRests := rests more ((Nat.le_max_right _ _).trans atLeast)
      have drives : Ends (drive (runLine setting (more + lineBound)) before.frames.length (count + 1))
          head (fun _ after => quitting.Rests after) fun _ after => quitting.Rests after := by
        rw [drive, ends_bind, Ends, turned]
        change Ends _ begun _ _
        rw [ends_bind]
        refine lineRests.weaken (fun succeeds after rested => ?_) (fun _ _ rested => rested)
        split
        · refine (drive_of_quits _ _ count rested.quits).weaken ?_ ?_
          · rintro _ _ rfl
            exact rested
          · rintro _ _ rfl
            exact rested
        · exact rested
      rw [Stage.rests_iff, Stage.result, Task.run, same, finalState_leaving]
      exact (ends_iff_finalState.mp drives).leaveFrame

/-- The induction is on the way from the stage to the quit. -/
theorem rests_of_comes {quitBound : Nat} {whole : Stage σ} {quitting : Session σ}
    (comes : Comes setting whole ⟨.execute quitBound .quit, quitting⟩) (isRead : whole.task.IsRead) :
    ∃ enough, ∀ more ≥ enough, (whole.raise more).Rests setting quitting := by
  induction comes using Relation.ReflTransGen.head_induction_on with
  | refl => exact ⟨0, fun _ _ => ⟨rfl, (Connection.adds_chains _).stay _⟩⟩
  | @head whole stage part comes inductionHypothesis =>
      obtain ⟨enough, rests⟩ := inductionHypothesis (part.isRead isRead)
      have noCalls : ¬whole.task.isCalling = true := fun calling =>
        Bool.false_ne_true (Comes.isCalling (.head part comes) calling)
      obtain ⟨task, before⟩ := whole
      cases task with
      | runFrame bound frame =>
          obtain ⟨lineBound, text, begun, rfl⟩ := part.isLine
          exact frame_rests part rests
      | runLine bound text =>
          exact ⟨enough, fun more least => line_rests (part.raise more) (rests more least)⟩
      | execute bound command =>
          refine ⟨enough, fun more least => ?_⟩
          exact ((part.raise more).sequel (fun _ _ => nofun) (fun _ _ => nofun)).rests isRead rfl
            (rests more least)
      | executeAll bound commands =>
          refine ⟨enough, fun more least => ?_⟩
          exact ((part.raise more).sequel (fun _ _ => nofun) (fun _ _ => nofun)).rests isRead rfl
            (rests more least)
      | poll | pollOn | call => exact absurd rfl noCalls

theorem Input.isRead {bound : Nat} {files : FileTree} {input : Input} {task : Task}
    (runs : task ∈ input.task? bound files) : task.IsRead := by
  cases input with
  | typed | source =>
      cases runs
      trivial
  | script path =>
      obtain ⟨frame, -, rfl⟩ := Input.task?_script.mp runs
      trivial

/-- An input is its task. -/
theorem Input.run_raise {bound : Nat} {first : Session σ} {input : Input} {task : Task}
    (runs : task ∈ input.task? bound first.connection.files) (more : Nat) :
    input.run setting (more + bound) first = (task.raise more).run setting first := by
  cases input with
  | typed | source =>
      cases runs
      rfl
  | script path =>
      obtain ⟨frame, loads, rfl⟩ := Input.task?_script.mp runs
      rw [Input.run, runScript, get_bind, loads]
      rfl

/-- Once a quit has been executed, all that the session is busy with comes to its end without a line
that begins and without a call, and the shell is about to be left then. -/
theorem quit_final {bound quitBound : Nat} {first quitting : Session σ} {input : Input} {task : Task}
    (runs : task ∈ input.task? bound first.connection.files)
    (comes : Comes setting ⟨task, first⟩ ⟨.execute quitBound .quit, quitting⟩) :
    (∃ enough, ∀ more ≥ enough, Ends (input.run setting (more + bound)) first
      (fun _ after => quitting.Rests after) fun _ after => quitting.Rests after) ∧
    ∀ whole, Comes setting ⟨task, first⟩ whole →
      Comes setting whole ⟨.execute quitBound .quit, quitting⟩ →
      ∃ enough, ∀ more ≥ enough, (whole.raise more).Rests setting quitting := by
  have isRead {whole : Stage σ} (between : Comes setting ⟨task, first⟩ whole) : whole.task.IsRead := by
    induction between with
    | refl => exact Input.isRead runs
    | tail _ part inductionHypothesis => exact part.isRead inductionHypothesis
  refine ⟨?_, fun whole between quits => rests_of_comes quits (isRead between)⟩
  obtain ⟨enough, rests⟩ := rests_of_comes comes (Input.isRead runs)
  refine ⟨enough, fun more least => ?_⟩
  rw [Ends, Input.run_raise runs]
  exact rests more least

/-- A script calls another one that quits. -/
def calling : Frame := .ofSource "outer" "Batch inner\nGetKey" false

def quittable : Session (List (Except Text Text)) :=
  start quietDefaults [] ⟨[], [(["inner"], encode "Quit\nGetKey")]⟩

theorem silent_of_quiet {before : Session σ} (quiet : before.store.verbosityLevel = 0)
    (setting : Setting σ) (line : Line) (text : Text) :
    onlyIf (!line.command.isNothing ∧ callLevel < before.store.verbosityLevel)
      (echo setting text) before = .ok () before :=
  congrFun (if_neg fun shown => absurd (quiet ▸ shown.2) (by decide)) before

theorem quit_final_nested : ∃ quitting,
    Comes .plain ⟨.runFrame 4 calling, quittable⟩ ⟨.execute 2 .quit, quitting⟩ ∧
      ∃ enough, ∀ more ≥ enough,
        Ends ((Input.source "outer" "Batch inner\nGetKey").run .plain (more + 4)) quittable
          (fun _ after => quitting.Rests after) fun _ after => quitting.Rests after := by
  let first := { quittable with frames := [calling] }
  let batching := finalState (begin calling [] first)
  let inner : Frame := .ofSource "inner" "Quit\nGetKey" false
  let second := { batching with frames := inner :: batching.frames }
  let quitting := finalState (begin inner batching.frames second)
  have outerHead : FrameHeads .plain 4 calling quittable first := .first
  have outerReads : Line.read batching.connection.files.isFile "Batch inner" =
      .ok ⟨false, .batch "inner"⟩ := rfl
  have same : batching.store.expand (batching.date Setting.plain.clock) "inner" = "inner" := by
    decide
  have expands : expand .plain "inner" batching = .ok "inner" batching :=
    congrArg (fun text => EStateM.Result.ok text batching) same
  have loads : Frame.load batching.connection.files "inner" false = .ok inner := rfl
  have innerHead : FrameHeads .plain 3 inner batching second := .first
  have innerReads : Line.read quitting.connection.files.isFile "Quit" = .ok ⟨false, .quit⟩ := rfl
  have comes : Comes .plain ⟨.runFrame 4 calling, quittable⟩ ⟨.execute 2 .quit, quitting⟩ :=
    .head (.line outerHead rfl rfl rfl rfl) <|
      .head (.command outerReads (silent_of_quiet (by decide) _ _ _)) <|
      .head (.batch expands loads) <|
      .head (.line innerHead rfl rfl rfl rfl) <|
      .single (.command innerReads (silent_of_quiet (by decide) _ _ _))
  exact ⟨quitting, comes, (quit_final rfl comes).1⟩

end Session

end ManagementShell

import ManagementShell.Proofs.Command.Shape
import ManagementShell.Proofs.Session.Jump
import ManagementShell.Proofs.Session.Trace

/-
This file shows what commands do to the stack of frames: they may move the innermost frame, and they
leave the frames below it alone.
-/

namespace ManagementShell

variable {σ : Type}

/-- The innermost frame takes the steps, and the frames below it stay. -/
inductive Stack.Goes : List Frame → List Step → List Frame → Prop
  | empty : Goes [] [] []
  | innermost {frame passed last} (below : List Frame) (goes : frame.Goes passed last) :
      Goes (frame :: below) passed (last :: below)

namespace Stack

theorem Goes.stay (frames : List Frame) : Goes frames [] frames := by
  cases frames with
  | nil => exact .empty
  | cons frame below => exact .innermost below (.stay frame)

theorem Goes.append {first middle last : List Frame} {early late : List Step}
    (begins : Goes first early middle) (ends : Goes middle late last) :
    Goes first (early ++ late) last := by
  cases begins with
  | empty => exact ends
  | innermost below goes =>
      cases ends with
      | innermost _ further => exact .innermost below (goes.append further)

theorem Goes.length {first last : List Frame} {passed : List Step}
    (goes : Goes first passed last) : last.length = first.length := by
  cases goes <;> rfl

end Stack

/-- The connection has noted the steps of the frame at the depth, and nothing of frames below it. -/
def Connection.Passes (depth : Nat) (passed : List Step) (before after : Connection σ) : Prop :=
  ∃ added, after.events = before.events ++ added ∧ steps depth added = passed ∧
    ∀ event ∈ added, ∀ place ∈ event.depth?, depth ≤ place

theorem Connection.Passes.append {depth : Nat} {first middle last : Connection σ}
    {early late : List Step} (begins : first.Passes depth early middle)
    (ends : middle.Passes depth late last) : first.Passes depth (early ++ late) last := by
  obtain ⟨added, grows, rfl, above⟩ := begins
  obtain ⟨more, growsOn, rfl, moreAbove⟩ := ends
  refine ⟨added ++ more, by rw [growsOn, grows, List.append_assoc], steps_append _ _ _, ?_⟩
  intro event member
  rcases List.mem_append.mp member with isEarly | isLate
  · exact above event isEarly
  · exact moreAbove event isLate

namespace Session

/-- The innermost frame has taken the steps. -/
structure Passes (passed : List Step) (before after : Session σ) : Prop where
  stack : Stack.Goes before.frames passed after.frames
  events : before.connection.Passes before.frames.length passed after.connection

/-- Other frames have run and are gone; the frames and the place of execution are as before. -/
structure Apart (before after : Session σ) : Prop where
  frames : after.frames = before.frames
  line : after.store.stored? Variable.line = before.store.stored? Variable.line
  script : after.store.stored? Variable.script = before.store.stored? Variable.script
  events : ∃ added, after.connection.events = before.connection.events ++ added ∧
    ∀ event ∈ added, ∀ depth ∈ event.depth?, before.frames.length < depth

/-- The innermost frame may have moved, but it has not returned. -/
def Roams (before after : Session σ) : Prop :=
  ∃ passed, .move .leave ∉ passed ∧ Passes passed before after

/-- The innermost frame has returned, and has done nothing else. -/
structure Returned (before after : Session σ) : Prop where
  passes : Passes [.move .leave] before after
  quits : after.quits = before.quits

theorem Passes.append {first middle last : Session σ} {early late : List Step}
    (begins : first.Passes early middle) (ends : middle.Passes late last) :
    first.Passes (early ++ late) last := by
  refine ⟨begins.stack.append ends.stack, ?_⟩
  have further := ends.events
  rw [begins.stack.length] at further
  exact begins.events.append further

theorem Remains.passes {before after : Session σ} (remains : before.Remains after) :
    before.Passes [] after := by
  obtain ⟨added, grows, none⟩ := remains.events
  refine ⟨remains.frames ▸ .stay _, added, grows, ?_, ?_⟩
  · exact steps_eq_nil fun event member => by simp [none event member]
  · intro event member place isPlace
    simp [none event member] at isPlace

theorem Apart.passes {before after : Session σ} (apart : before.Apart after) :
    before.Passes [] after := by
  obtain ⟨added, grows, above⟩ := apart.events
  refine ⟨apart.frames ▸ .stay _, added, grows, ?_, ?_⟩
  · refine steps_eq_nil fun event member elsewhere => ?_
    exact absurd (above event member _ elsewhere) (Nat.lt_irrefl _)
  · intro event member place isPlace
    exact Nat.le_of_lt (above event member place isPlace)

theorem Passes.roams {before after : Session σ} (passes : before.Passes [] after) :
    before.Roams after := ⟨[], List.not_mem_nil, passes⟩

theorem roams_chains : Chains (Roams (σ := σ)) where
  stay session := (remains_chains.stay session).passes.roams
  join := by
    rintro first second third ⟨early, notEarly, begins⟩ ⟨late, notLate, ends⟩
    refine ⟨early ++ late, ?_, begins.append ends⟩
    intro member
    rcases List.mem_append.mp member with isEarly | isLate
    · exact notEarly isEarly
    · exact notLate isLate

theorem roams_of_remains {α : Type} {action : Action σ α} (remains : Leads Remains action) :
    Leads Roams action := fun session =>
  (remains session).weaken (fun _ _ step => step.passes.roams) (fun _ _ step => step.passes.roams)

theorem roams_of_still {α : Type} {action : Action σ α} (still : Leads Still action) :
    Leads Roams action := roams_of_remains (remains_of_still still)

/-- One event about the innermost frame is one step of it. -/
theorem step_passes {before after : Session σ} {frame last : Frame} {below : List Frame}
    {event : Event} {step : Step} (innermost : before.frames = frame :: below)
    (moved : after.frames = last :: below)
    (events : after.connection.events = before.connection.events ++ [event])
    (depth : event.depth? = some (below.length + 1))
    (noted : event.step? (below.length + 1) = some step) (goes : frame.Goes [step] last) :
    before.Passes [step] after := by
  refine ⟨by rw [innermost, moved]; exact .innermost below goes, [event], events, ?_, ?_⟩
  · simp [innermost, steps, noted]
  · intro added member place isPlace
    rw [List.mem_singleton] at member
    subst member
    rw [depth, Option.mem_some_iff] at isPlace
    simp [innermost, ← isPlace]

/-- A move of the innermost frame is one step of it. -/
theorem move_passes {session : Session σ} {frame last : Frame} {below : List Frame} {move : Move}
    (innermost : session.frames = frame :: below) (goes : frame.Goes [.move move] last) :
    session.Passes [.move move]
      ({ session with frames := last :: below }.addEvent (.moved (below.length + 1) move)) :=
  step_passes innermost rfl rfl rfl (by simp [Event.step?]) goes

section

variable {setting : Setting σ} {runFrame : Frame → Action σ Bool}
  (nested : ∀ frame, Leads Apart (runFrame frame))
include nested

omit nested in
/-- Another script starts without pending returns. -/
theorem enter_fresh (files : FileTree) (path place : Text) (enteredByGosub : Bool) :
    Gives (enter files path place enteredByGosub) (fun frame => frame.returns = [])
      fun _ => True := by
  unfold enter
  split
  · trivial
  · rename_i frame loaded
    have fresh : frame.returns = [] := by
      unfold Frame.load at loaded
      split at loaded
      · cases loaded
        rfl
      · cases loaded
    split
    · exact fresh
    · split
      · exact fresh
      · trivial

/-- A jump moves the innermost frame once, or runs another script apart from it, or fails. -/
theorem jump_roams (target : Text) (isGosub : Bool) :
    Leads Roams (jump setting runFrame target isGosub) := by
  intro session
  apply ends_jump
  case fails => exact fun _ => roams_chains.stay session
  case runs =>
    intro _ _ other _ _
    exact (nested other session).weaken (fun _ _ step => step.passes.roams)
      (fun _ _ step => step.passes.roams)
  case replaces =>
    intro frame below _ _ other _ innermost entered
    have fresh := gives_of_eq_ok entered (enter_fresh _ _ _ _)
    exact ⟨[.move .replace], by simp, move_passes innermost (.replace other fresh (.stay other))⟩
  case moves =>
    intro frame below _ cursor innermost located
    cases isGosub with
    | true => exact ⟨[.move .gosub], by simp, move_passes innermost (.gosub cursor (.stay _))⟩
    | false => exact ⟨[.move .goto], by simp, move_passes innermost (.goto cursor (.stay _))⟩

theorem batch_roams (path : Text) : Leads Roams (batch setting runFrame path) := by
  apply Leads.bind roams_chains (roams_of_still (expand_still setting path))
  intro expanded
  apply Leads.bind roams_chains (leads_get roams_chains)
  intro session
  apply Leads.bind roams_chains (roams_of_still (check_still _))
  intro frame before
  exact (nested frame before).weaken (fun _ _ step => step.passes.roams)
    (fun _ _ step => step.passes.roams)

end

/-- A return moves the innermost frame back, or fails. -/
theorem leave_returned (session : Session σ) :
    Ends leave session (fun outcome after => outcome = true ∧ session.Returned after)
      (fun _ after => session.Still after) := by
  apply ends_leave
  case fails => exact fun _ => still_chains.stay session
  case leaves =>
    intro frame below after innermost returned
    exact ⟨rfl, move_passes innermost (.leave returned (.stay after)), rfl⟩

theorem quit_roams : Leads (Roams (σ := σ))
    (modify fun session => { session with quits := true } : Action σ Unit) := by
  apply leads_modify
  intro session
  have stays := (remains_chains.stay session).passes
  exact Passes.roams ⟨stays.stack, stays.events⟩

/-- What the action does under a context, it does without the context. -/
theorem withContext_ends {action : Action σ Bool} {number : Nat} {before : Session σ}
    {done : Bool → Session σ → Prop} {halted : Halt → Session σ → Prop}
    (holds : Ends action { before with context := some number }
      (fun outcome after => done outcome { after with context := none })
      (fun halt after => halted halt { after with context := none })) :
    Ends (withContext number action) before done halted := by
  unfold Ends withContext at *
  cases ran : action { before with context := some number } with
  | ok outcome after =>
      rw [ran] at holds
      exact holds
  | error halt after =>
      rw [ran] at holds
      exact holds

theorem Passes.withoutContext {passed : List Step} {before after : Session σ} {number : Nat}
    (passes : Passes passed { before with context := some number } after) :
    before.Passes passed { after with context := none } := ⟨passes.stack, passes.events⟩

theorem Roams.withoutContext {before after : Session σ} {number : Nat}
    (roams : Roams { before with context := some number } after) :
    before.Roams { after with context := none } := by
  obtain ⟨passed, notLeft, passes⟩ := roams
  exact ⟨passed, notLeft, passes.withoutContext⟩

/-- The innermost frame may have moved; where it may return, it may also have returned with
success. -/
def Finishes (mayReturn : Bool) (before : Session σ) (outcome : Bool) (after : Session σ) : Prop :=
  before.Roams after ∨ mayReturn = true ∧ outcome = true ∧ before.Returned after

theorem Finishes.withoutContext {mayReturn outcome : Bool} {before after : Session σ}
    {number : Nat}
    (finishes : Finishes mayReturn { before with context := some number } outcome after) :
    Finishes mayReturn before outcome { after with context := none } := by
  rcases finishes with roams | ⟨may, succeeds, returned⟩
  · exact .inl roams.withoutContext
  · exact .inr ⟨may, succeeds, returned.passes.withoutContext, returned.quits⟩

theorem Still.finishes {mayReturn outcome : Bool} {before middle after : Session σ}
    (still : before.Still middle) (finishes : Finishes mayReturn middle outcome after) :
    Finishes mayReturn before outcome after := by
  rcases finishes with roams | ⟨may, succeeds, returned⟩
  · exact .inl (roams_chains.join still.remains.passes.roams roams)
  · exact .inr ⟨may, succeeds, still.remains.passes.append returned.passes,
      returned.quits.trans still.quits⟩

/-- Every run of the action ends as `Finishes` says, with success or without it. -/
def EndsWell (mayReturn : Bool) (action : Action σ Bool) : Prop :=
  ∀ before, Ends action before (fun outcome after => Finishes mayReturn before outcome after)
    (fun _ after => before.Roams after)

theorem endsWell_of_roams {mayReturn : Bool} {action : Action σ Bool}
    (roams : Leads Roams action) : EndsWell mayReturn action := fun session =>
  (roams session).weaken (fun _ _ step => .inl step) (fun _ _ step => step)

theorem EndsWell.mayReturn {mayReturn : Bool} {action : Action σ Bool}
    (well : EndsWell mayReturn action) : EndsWell true action := fun session =>
  (well session).weaken (fun _ _ finishes => finishes.imp_right fun returned => ⟨rfl, returned.2⟩)
    (fun _ _ step => step)

theorem roams_of_endsWell {action : Action σ Bool} (well : EndsWell false action) :
    Leads Roams action := fun session =>
  (well session).weaken
    (fun _ _ finishes => finishes.resolve_right fun returned => Bool.noConfusion returned.1)
    (fun _ _ step => step)

theorem endsWell_of_still {mayReturn : Bool} {action : Action σ Bool}
    (still : Leads Still action) : EndsWell mayReturn action :=
  endsWell_of_roams (roams_of_still still)

/-- Nothing that happens to the frames comes before the rest. -/
theorem EndsWell.bind {α : Type} {mayReturn : Bool} {action : Action σ α}
    {next : α → Action σ Bool} (first : Leads Still action)
    (second : ∀ value, EndsWell mayReturn (next value)) : EndsWell mayReturn (action >>= next) := by
  intro before
  rw [ends_bind]
  refine (first before).weaken (fun value middle still => ?_)
    (fun _ _ still => still.remains.passes.roams)
  exact (second value middle).weaken (fun _ _ finishes => still.finishes finishes)
    (fun _ _ roams => roams_chains.join still.remains.passes.roams roams)

theorem inContext_endsWell {mayReturn : Bool} (setting : Setting σ) (look : Text)
    {inner : Action σ Bool} (well : EndsWell mayReturn inner) :
    EndsWell mayReturn (inContext setting look inner) := by
  apply EndsWell.bind (expand_still setting look)
  intro expanded
  apply EndsWell.bind (onlyIf_leads still_chains (fail_still _))
  intro _
  apply EndsWell.bind (find_still setting expanded none none)
  intro found
  cases found with
  | none => exact endsWell_of_still (fail_still _)
  | some found =>
      intro before
      exact withContext_ends ((well _).weaken (fun _ _ finishes => finishes.withoutContext)
        (fun _ _ roams => roams.withoutContext))

section

variable {setting : Setting σ} {calls : Nat} {runFrame : Frame → Action σ Bool}

mutual

/-- The induction is on the command: inner commands and operators are parts of it. -/
theorem execute_endsWell (nested : ∀ frame, Leads Apart (runFrame frame)) (command : Command)
    (last : command.returnIsLast = true) :
    EndsWell command.mayReturn (execute setting calls runFrame command) := by
  match command with
  | .nothing | .clear | .count _ | .find _ _ _ | .findAll _ _ | .log _ _ | .print _ | .report _ _
  | .listVariables | .assign _ _ | .evaluate _ _ | .sleep _ | .unset _ =>
      exact endsWell_of_still (execute_still setting calls runFrame rfl)
  | .batch path => exact endsWell_of_roams (batch_roams nested path)
  | .context look inner =>
      rw [Command.returnIsLast] at last
      exact inContext_endsWell setting look (execute_endsWell nested inner last)
  | .gosub target => exact endsWell_of_roams (jump_roams nested target true)
  | .goto target => exact endsWell_of_roams (jump_roams nested target false)
  | .conditional condition inner =>
      rw [Command.returnIsLast] at last
      apply EndsWell.bind (holds_still setting condition)
      intro holds
      split
      · exact execute_endsWell nested inner last
      · exact endsWell_of_still (leads_pure still_chains _)
  | .quit =>
      exact endsWell_of_roams (Leads.bind roams_chains quit_roams fun _ =>
        leads_pure roams_chains _)
  | .leave =>
      intro session
      exact (leave_returned session).weaken
        (fun _ _ ⟨succeeds, returned⟩ => .inr ⟨rfl, succeeds, returned⟩)
        (fun _ _ still => still.remains.passes.roams)
  | .poll condition words =>
      exact endsWell_of_roams (roams_of_remains (poll_remains setting calls condition words))
  | .invoke words condition operators =>
      simp only [Command.returnIsLast, Bool.not_eq_true'] at last
      apply endsWell_of_roams
      have operate (answered : Bool) : Leads Roams
          (if answered then executeAll setting calls runFrame operators else pure false) := by
        split
        · exact executeAll_roams nested operators last
        · exact leads_pure roams_chains _
      cases condition with
      | none =>
          exact Leads.bind roams_chains (roams_of_remains (call_remains setting words)) operate
      | some condition =>
          exact Leads.bind roams_chains
            (roams_of_remains (poll_remains setting calls condition words)) operate

theorem executeAll_roams (nested : ∀ frame, Leads Apart (runFrame frame))
    (commands : List Command) (never : Command.anyMayReturn commands = false) :
    Leads Roams (executeAll setting calls runFrame commands) := by
  match commands with
  | [] => exact leads_pure roams_chains _
  | first :: rest =>
      simp only [Command.anyMayReturn, Bool.or_eq_false_iff] at never
      have firstWell := execute_endsWell nested first
        (Command.returnIsLast_of_not_mayReturn never.1)
      rw [never.1] at firstWell
      apply Leads.bind roams_chains (roams_of_endsWell firstWell)
      intro succeeds
      split
      · exact executeAll_roams nested rest never.2
      · exact leads_pure roams_chains _

end

end

/-- Reporting a failure is still, so the frames are where the action has left them. -/
theorem reported_endsWell {before after : Session σ} (roams : before.Roams after)
    (message : Text) (outcome : Bool) :
    Ends (reportFailure message) after (fun _ last => Finishes true before outcome last)
      (fun halt last => halt = .exhausted ∧ before.Roams last) := by
  simp only [reportFailure, record, emit, ends_bind, ends_get, ends_modify]
  exact .inl (roams_chains.join roams (addEvent_remains _ rfl).passes.roams)

/-- A line succeeds with its command, or the failure of the command is reported. -/
theorem ends_settle (name : Text) (ignoresFailure : Bool) (action : Action σ Bool)
    {before : Session σ} {done : Bool → Session σ → Prop} {halted : Halt → Session σ → Prop} :
    Ends (settle name ignoresFailure action) before done halted ↔
      Ends action before
        (fun outcome after => if outcome then done true after
          else Ends (reportFailure (name ++ " failed")) after (fun _ => done ignoresFailure) halted)
        (fun halt after => match halt with
          | .failed cause =>
              Ends (reportFailure cause.message) after (fun _ => done ignoresFailure) halted
          | .exhausted => halted .exhausted after) := by
  unfold Ends settle
  rcases action before with ⟨_ | _, after⟩ | ⟨_ | _, after⟩ <;> rfl

/-- A line does not halt with a failure. -/
theorem settle_endsWell {action : Action σ Bool} (well : EndsWell true action) (name : Text)
    (ignoresFailure : Bool) (before : Session σ) :
    Ends (settle name ignoresFailure action) before (fun outcome after =>
        Finishes true before outcome after)
      (fun halt after => halt = .exhausted ∧ before.Roams after) := by
  rw [ends_settle]
  refine (well before).weaken (fun outcome after ended => ?_) (fun halt after ended => ?_)
  · cases outcome with
    | true => exact ended
    | false =>
        have roams := ended.resolve_right fun returned => Bool.noConfusion returned.2.1
        exact reported_endsWell roams (name ++ " failed") ignoresFailure
  · cases halt with
    | failed cause => exact reported_endsWell ended cause.message ignoresFailure
    | exhausted => exact ⟨rfl, ended⟩

/-- The echo of a line is still, and it does not halt. -/
theorem echoed {setting : Setting σ} {text : Text} {condition : Prop} [Decidable condition]
    (before : Session σ) :
    Ends (onlyIf condition (echo setting text)) before (fun _ after => before.Still after)
      (fun _ _ => False) := by
  unfold onlyIf
  split
  · exact addEvent_still before rfl
  · exact still_chains.stay before

theorem executeLine_endsWell {setting : Setting σ} {calls : Nat}
    {runFrame : Frame → Action σ Bool} (nested : ∀ frame, Leads Apart (runFrame frame))
    (text : Text) (before : Session σ) :
    Ends (executeLine setting calls runFrame text) before (fun outcome after =>
        Finishes true before outcome after)
      (fun halt after => halt = .exhausted ∧ before.Roams after) := by
  simp only [executeLine, ends_bind, ends_get]
  split
  · rw [ends_bind]
    exact reported_endsWell (roams_chains.stay before) _ _
  · rename_i line read
    have last := gives_of_eq_ok read (Line.read_lastReturn _ _)
    have well : EndsWell true (execute setting calls runFrame line.command) :=
      (execute_endsWell nested line.command last).mayReturn
    rw [ends_bind]
    refine (echoed before).weaken (fun _ middle still => ?_) (fun _ _ impossible => impossible.elim)
    exact (settle_endsWell well line.command.name line.ignoresFailure middle).weaken
      (fun _ _ finishes => still.finishes finishes)
      (fun _ _ stopped => stopped.imp_right (roams_chains.join still.remains.passes.roams))

end Session

end ManagementShell

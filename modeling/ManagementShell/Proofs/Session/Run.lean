import ManagementShell.Proofs.Session.Stack
import ManagementShell.Proofs.Table
import Mathlib.Data.List.Chain

/-
This file shows how a frame runs: its turns keep the frames below it, its gosubs and returns are
bracketed, and when it is over the place of execution is as before. A session runs inputs one after
the other.
-/

namespace ManagementShell

variable {σ : Type}

/-- In this setting there are no methods, and the time stands still. -/
def Setting.plain : Setting (List (Except Text Text)) where
  catalog := []
  client := {}
  peer := .inTurn
  clock := ⟨fun _ => 0, fun _ => [], fun _ => []⟩

namespace Session

/-- The innermost frame has no further line. -/
def AtEnd (session : Session σ) : Prop :=
  ∀ frame below, session.frames = frame :: below → frame.lines.length ≤ frame.cursor

/-- What a turn of the loop may end with. -/
inductive Turned (before : Session σ) : Option Bool → Session σ → Prop
  | quit (quits : before.quits = true) : Turned before (some true) before
  | past (atEnd : before.AtEnd) : Turned before (some true) before
  | failed {frame moves after} (stays : .move .leave ∉ moves)
      (passes : before.Passes (.line frame :: moves) after) : Turned before (some false) after
  | went {frame moves after} (stays : .move .leave ∉ moves)
      (passes : before.Passes (.line frame :: moves) after) : Turned before none after
  | returned {frame after} (passes : before.Passes [.line frame, .move .leave] after)
      (goesOn : after.quits = false) : Turned before none after

/-- Every run of the line ends as `Finishes` says, and it halts only when the steps are used up. -/
def LineEnds (line : Text → Action σ Bool) : Prop :=
  ∀ text before, Ends (line text) before (fun outcome after => Finishes true before outcome after)
    (fun halt after => halt = .exhausted ∧ before.Roams after)

theorem begin_passes {session : Session σ} {frame : Frame} {below : List Frame}
    (innermost : session.frames = frame :: below) (within : frame.cursor < frame.lines.length) :
    Ends (begin frame below) session
      (fun _ after => session.Passes [.line frame] after ∧ after.quits = session.quits)
      (fun _ _ => False) :=
  ⟨step_passes innermost rfl rfl rfl (by simp [Event.step?]) (.line within (.stay _)), rfl⟩

/-- After a return, the next step can only be the beginning of a line. -/
def ReturnsToLine (first second : Step) : Prop :=
  first = .move .leave → ∃ frame, second = .line frame

/-- The innermost frame has taken turns: its first step begins a line, and so does the step after
each return. -/
structure Driven (passed : List Step) (before after : Session σ) : Prop where
  passes : before.Passes passed after
  begins : ∀ step ∈ passed.head?, ∃ frame, step = .line frame
  returns : passed.IsChain ReturnsToLine

/-- After no turn, and after a return, a frame that does not quit ends well and at its end. -/
def Concludes (passed : List Step) (before : Session σ) (outcome : Bool) (after : Session σ) :
    Prop :=
  (passed = [] → before.quits = false → outcome = true ∧ after.AtEnd) ∧
    (passed.getLast? = some (.move .leave) → outcome = true ∧ after.AtEnd)

theorem Driven.stay (session : Session σ) : Driven [] session session :=
  ⟨(remains_chains.stay session).passes, by simp, .nil⟩

theorem isChain_of_stays {passed : List Step} (stays : .move .leave ∉ passed) :
    passed.IsChain ReturnsToLine := by
  induction passed with
  | nil => exact .nil
  | cons first rest inductionHypothesis =>
      rw [List.isChain_cons]
      refine ⟨fun second _ leaves => ?_, inductionHypothesis fun member => stays (.tail _ member)⟩
      exact absurd (leaves ▸ List.mem_cons_self) stays

/-- One line is driven. -/
theorem Driven.ofTurn {frame : Frame} {moves : List Step} {before after : Session σ}
    (moved : .move .leave ∉ moves ∨ moves = [.move .leave])
    (passes : before.Passes (.line frame :: moves) after) :
    Driven (.line frame :: moves) before after := by
  refine ⟨passes, by simp, ?_⟩
  rcases moved with stays | rfl
  · exact isChain_of_stays (by simpa using stays)
  · simp [ReturnsToLine]

/-- What is driven after a turn begins a line, so it may follow a return. -/
theorem Driven.append {first rest : List Step} {before middle after : Session σ}
    (begins : Driven first before middle) (ends : Driven rest middle after) :
    Driven (first ++ rest) before after := by
  refine ⟨begins.passes.append ends.passes, ?_, ?_⟩
  · intro step isFirst
    cases first with
    | nil => exact ends.begins step isFirst
    | cons head tail => exact begins.begins step isFirst
  · rw [List.isChain_append]
    exact ⟨begins.returns, ends.returns, fun _ _ second isSecond _ => ends.begins second isSecond⟩

theorem line_getLast {frame : Frame} {moves : List Step} (stays : .move .leave ∉ moves) :
    (.line frame :: moves : List Step).getLast? ≠ some (.move .leave) := by
  intro isLast
  have member := List.mem_of_getLast? isLast
  simp [stays] at member

theorem Concludes.append {first rest : List Step} {before middle after : Session σ}
    {outcome : Bool} (concludes : Concludes rest middle outcome after) (nonempty : first ≠ [])
    (goesOn : first.getLast? = some (.move .leave) → middle.quits = false) :
    Concludes (first ++ rest) before outcome after := by
  refine ⟨fun none => absurd (List.append_eq_nil_iff.mp none).1 nonempty, fun isLast => ?_⟩
  cases rest with
  | nil => exact concludes.1 rfl (goesOn (by simpa using isLast))
  | cons head tail =>
      rw [List.getLast?_append_of_ne_nil _ (List.cons_ne_nil head tail)] at isLast
      exact concludes.2 isLast

theorem Passes.innermost {passed : List Step} {before after : Session σ} {frame : Frame}
    {below : List Frame} (passes : before.Passes passed after)
    (innermost : before.frames = frame :: below) : ∃ last, after.frames = last :: below := by
  have stack := passes.stack
  rw [innermost] at stack
  generalize after.frames = frames at stack
  cases stack with
  | innermost _ goes => exact ⟨_, rfl⟩

section

variable {line : Text → Action σ Bool} (lineEnds : LineEnds line)
include lineEnds

/-- A turn begins one line, or it ends the frame. -/
theorem turn_turned {before : Session σ} {frame : Frame} {below : List Frame}
    (innermost : before.frames = frame :: below) :
    Ends (turn line below.length) before (fun result after => Turned before result after)
      (fun halt after => halt = .exhausted ∧ ∃ moves, .move .leave ∉ moves ∧
        before.Passes (.line frame :: moves) after) := by
  simp only [turn, ends_bind, ends_get]
  split
  · rename_i ended
    rw [innermost, List.length_cons] at ended
    exact .quit (ended.resolve_right (by omega))
  · rename_i goesOn
    rw [innermost]
    dsimp only
    split
    · rename_i past
      rw [List.getElem?_eq_none_iff] at past
      refine .past fun other rest same => ?_
      cases innermost.symm.trans same
      exact past
    · rename_i text isLine
      have within := (List.getElem?_eq_some_iff.mp isLine).1
      rw [ends_bind]
      refine (begin_passes innermost within).weaken (fun _ begun start => ?_)
        (fun _ _ impossible => impossible.elim)
      obtain ⟨begins, quits⟩ := start
      rw [ends_bind]
      refine (lineEnds text begun).weaken (fun outcome after finishes => ?_)
        (fun halt after stopped => ?_)
      swap
      · obtain ⟨exhausted, moves, stays, passes⟩ := stopped
        exact ⟨exhausted, moves, stays, begins.append passes⟩
      rcases finishes with ⟨moves, stays, passes⟩ | ⟨_, rfl, returned⟩
      · cases outcome with
        | true => exact .went stays (begins.append passes)
        | false => exact .failed stays (begins.append passes)
      · refine .returned (begins.append returned.passes) ?_
        rw [returned.quits, quits]
        simpa using (not_or.mp goesOn).1

/-- The frame takes turns; the induction is on the number of turns that it may take. -/
theorem drive_driven (count : Nat) {before : Session σ} {frame : Frame} {below : List Frame}
    (innermost : before.frames = frame :: below) :
    Ends (drive line below.length count) before
      (fun outcome after => ∃ passed, Driven passed before after ∧
        Concludes passed before outcome after)
      (fun halt after => halt = .exhausted ∧ ∃ passed, Driven passed before after) := by
  induction count generalizing before frame with
  | zero => exact ⟨rfl, [], Driven.stay before⟩
  | succ count inductionHypothesis =>
      rw [drive, ends_bind]
      refine (turn_turned lineEnds innermost).weaken (fun result after turned => ?_)
        (fun halt after ⟨exhausted, moves, stays, passes⟩ =>
          ⟨exhausted, _, Driven.ofTurn (.inl stays) passes⟩)
      cases turned with
      | quit quits => exact ⟨[], Driven.stay before, by simp [Concludes, quits]⟩
      | past atEnd => exact ⟨[], Driven.stay before, by simp [Concludes, atEnd]⟩
      | failed stays passes =>
          refine ⟨_, Driven.ofTurn (.inl stays) passes, List.cons_ne_nil _ _ |>.elim, ?_⟩
          exact fun isLast => absurd isLast (line_getLast stays)
      | went stays passes =>
          obtain ⟨last, same⟩ := passes.innermost innermost
          refine (inductionHypothesis same).weaken (fun _ _ ⟨rest, driven, concludes⟩ => ?_)
            (fun _ _ ⟨exhausted, rest, driven⟩ =>
              ⟨exhausted, _, (Driven.ofTurn (.inl stays) passes).append driven⟩)
          exact ⟨_, (Driven.ofTurn (.inl stays) passes).append driven,
            concludes.append (List.cons_ne_nil _ _)
              fun isLast => absurd isLast (line_getLast stays)⟩
      | returned passes goesOn =>
          obtain ⟨last, same⟩ := passes.innermost innermost
          refine (inductionHypothesis same).weaken (fun _ _ ⟨rest, driven, concludes⟩ => ?_)
            (fun _ _ ⟨exhausted, rest, driven⟩ =>
              ⟨exhausted, _, (Driven.ofTurn (.inr rfl) passes).append driven⟩)
          exact ⟨_, (Driven.ofTurn (.inr rfl) passes).append driven,
            concludes.append (List.cons_ne_nil _ _) fun _ => goesOn⟩

end

theorem restore_stored? (store : Store) (name other : Text) (value : Option Value) :
    (restore store name value).stored? other = if other = name then value else store.stored? other := by
  cases value <;> simp [restore]

/-- The frames and the place of execution are those of the state before. -/
structure Restored (before after : Session σ) : Prop where
  frames : after.frames = before.frames
  line : after.store.stored? Variable.line = before.store.stored? Variable.line
  script : after.store.stored? Variable.script = before.store.stored? Variable.script

theorem leaveFrame_restored {before after : Session σ} {last : Frame}
    (innermost : after.frames = last :: before.frames) : before.Restored (leaveFrame before after) where
  frames := by simp [leaveFrame, innermost]
  line := by
    have differs : Variable.line ≠ Variable.script := by decide
    simp [leaveFrame, restore_stored?, differs]
  script := by simp [leaveFrame, restore_stored?]

/-- What the body ends with above the frames, the frame ends with. -/
theorem inFrame_ends {frame : Frame} {body : Nat → Action σ Bool} {before : Session σ}
    {done : Bool → Session σ → Prop} {halted : Halt → Session σ → Prop}
    (holds : Ends (body before.frames.length) { before with frames := frame :: before.frames }
      (fun outcome after => done outcome (leaveFrame before after))
      (fun halt after => halted halt (leaveFrame before after))) :
    Ends (inFrame frame body) before done halted := by
  unfold Ends inFrame at *
  cases ran : body before.frames.length { before with frames := frame :: before.frames } with
  | ok outcome after =>
      rw [ran] at holds
      exact holds
  | error halt after =>
      rw [ran] at holds
      exact holds

/-- The frame has taken the steps above the frames that were there, and is gone. An outcome is known
unless the steps were used up. -/
structure Ran (frame : Frame) (outcome : Option Bool) (passed : List Step)
    (before after : Session σ) : Prop where
  restored : before.Restored after
  goes : ∃ last, frame.Goes passed last ∧ (passed.getLast? = some (.move .leave) →
    ∀ result ∈ outcome, result = true ∧ last.lines.length ≤ last.cursor)
  returns : passed.IsChain ReturnsToLine
  events : ∃ added, after.connection.events = before.connection.events ++ added ∧
    steps (before.frames.length + 1) added = passed ∧
    ∀ event ∈ added, ∀ depth ∈ event.depth?, before.frames.length < depth

theorem Ran.apart {frame : Frame} {outcome : Option Bool} {passed : List Step}
    {before after : Session σ} (ran : Ran frame outcome passed before after) :
    before.Apart after := by
  obtain ⟨added, grows, _, above⟩ := ran.events
  exact ⟨ran.restored.frames, ran.restored.line, ran.restored.script, added, grows, above⟩

/-- What drives the frame above the others, runs it. -/
theorem Driven.ran {frame : Frame} {outcome : Option Bool} {passed : List Step}
    {before after : Session σ}
    (driven : Driven passed { before with frames := frame :: before.frames } after)
    (concludes : passed.getLast? = some (.move .leave) →
      ∀ result ∈ outcome, result = true ∧ after.AtEnd) :
    Ran frame outcome passed before (leaveFrame before after) := by
  obtain ⟨last, innermost⟩ := driven.passes.innermost rfl
  have stack := driven.passes.stack
  rw [innermost] at stack
  cases stack with
  | innermost _ goes =>
      refine ⟨leaveFrame_restored innermost, ⟨last, goes, fun isLast result isResult => ?_⟩,
        driven.returns, driven.passes.events⟩
      obtain ⟨succeeds, atEnd⟩ := concludes isLast result isResult
      exact ⟨succeeds, atEnd last _ innermost⟩

/-- Lines end well where nested frames run apart. -/
theorem lineEnds_of_ran {setting : Setting σ} {calls : Nat} {runFrame : Frame → Action σ Bool}
    (runs : ∀ frame before, Ends (runFrame frame) before
      (fun outcome after => ∃ passed, Ran frame (some outcome) passed before after)
      (fun halt after => halt = .exhausted ∧ ∃ passed, Ran frame none passed before after)) :
    LineEnds (executeLine setting calls runFrame) :=
  executeLine_endsWell fun frame session =>
    (runs frame session).weaken (fun _ _ ⟨_, ran⟩ => ran.apart) (fun _ _ ⟨_, _, ran⟩ => ran.apart)

/-- Every frame is run so; the induction is on the bound of the depth of frames. -/
theorem runFrame_ran (setting : Setting σ) (bound : Nat) (frame : Frame) (before : Session σ) :
    Ends (runFrame setting bound frame) before
      (fun outcome after => ∃ passed, Ran frame (some outcome) passed before after)
      (fun halt after => halt = .exhausted ∧ ∃ passed, Ran frame none passed before after) := by
  induction bound generalizing frame before with
  | zero =>
      refine ⟨rfl, [], ⟨rfl, rfl, rfl⟩, ⟨frame, .stay frame, by simp⟩, .nil, [], by simp, rfl, ?_⟩
      simp
  | succ bound inductionHypothesis =>
      have lineEnds : LineEnds (executeLine setting bound (runFrame setting bound)) :=
        lineEnds_of_ran inductionHypothesis
      refine inFrame_ends ((drive_driven lineEnds bound rfl).weaken ?_ ?_)
      · intro outcome after ⟨passed, driven, concludes⟩
        refine ⟨passed, driven.ran fun isLast result isResult => ?_⟩
        cases isResult
        exact concludes.2 isLast
      · intro halt after ⟨exhausted, passed, driven⟩
        exact ⟨exhausted, passed, driven.ran (by simp)⟩

/-- The states at the head of the loop, before each of its turns and after the last one. -/
inductive Heads (line : Text → Action σ Bool) (base : Nat) (first : Session σ) : Session σ → Prop
  | first : Heads line base first first
  | next {head after} (reached : Heads line base first head)
      (turned : turn line base head = .ok none after) : Heads line base first after

theorem Heads.innermost {line : Text → Action σ Bool} (lineEnds : LineEnds line)
    {below : List Frame} {first head : Session σ} (reached : Heads line below.length first head)
    (innermost : ∃ frame, first.frames = frame :: below) :
    ∃ frame, head.frames = frame :: below := by
  induction reached with
  | first => exact innermost
  | next _ turned inductionHypothesis =>
      obtain ⟨frame, same⟩ := inductionHypothesis
      cases ends_of_eq_ok turned (turn_turned lineEnds same) with
      | went _ passes => exact passes.innermost same
      | returned passes _ => exact passes.innermost same

/-- The states at the head of the loop that runs the frame. -/
def FrameHeads (setting : Setting σ) (bound : Nat) (frame : Frame) (before head : Session σ) :
    Prop :=
  match bound with
  | 0 => False
  | bound + 1 => Heads (executeLine setting bound (runFrame setting bound)) before.frames.length
      { before with frames := frame :: before.frames } head

/-- However a frame runs, the frames and the place of execution are as before when it is over, and
while it runs, there is exactly one frame above those that were there. -/
theorem runFrame_restores (setting : Setting σ) (bound : Nat) (frame : Frame)
    (before : Session σ) :
    Ends (runFrame setting bound frame) before (fun _ after => before.Restored after)
        (fun halt after => halt = .exhausted ∧ before.Restored after) ∧
      ∀ head, FrameHeads setting bound frame before head →
        ∃ innermost, head.frames = innermost :: before.frames := by
  refine ⟨(runFrame_ran setting bound frame before).weaken (fun _ _ ⟨_, ran⟩ => ran.restored)
    (fun _ _ ⟨exhausted, _, ran⟩ => ⟨exhausted, ran.restored⟩), fun head reached => ?_⟩
  cases bound with
  | zero => exact reached.elim
  | succ bound => exact Heads.innermost (lineEnds_of_ran (runFrame_ran setting bound)) reached ⟨frame, rfl⟩

/-- In this session a script runs at its second line. -/
def running : Session (List (Except Text Text)) :=
  let outer : Frame := ⟨"outer", ["Batch inner", "Quit"], 1, [], false⟩
  { start {} [] ⟨[], []⟩ with frames := [outer], store := place (.ofDefaults {}) outer }

/-- The turn leads to another one, although the shell is about to be left. -/
def leadsToQuit : EStateM.Result Halt (Session σ) (Option Bool) → Bool
  | .ok none after => after.quits
  | _ => false

theorem leadsToQuit_ok (result : EStateM.Result Halt (Session σ) (Option Bool))
    (leads : leadsToQuit result = true) : ∃ after, result = .ok none after ∧ after.quits = true := by
  unfold leadsToQuit at leads
  split at leads
  · exact ⟨_, rfl, leads⟩
  · cases leads

/-- A script that quits comes to the head of its loop again, above the script that runs. -/
theorem runFrame_restores_running :
    ∃ head, FrameHeads .plain 4 (.ofSource "inner" "Quit\n" false) running head ∧
      head.quits = true ∧ ∃ innermost, head.frames = innermost :: running.frames := by
  obtain ⟨after, turned, quits⟩ := leadsToQuit_ok
    (turn (executeLine .plain 3 (runFrame .plain 3)) running.frames.length
      { running with frames := .ofSource "inner" "Quit\n" false :: running.frames })
    (by decide)
  have reached : FrameHeads .plain 4 (.ofSource "inner" "Quit\n" false) running after :=
    .next .first turned
  exact ⟨after, reached, quits, (runFrame_restores .plain 4 _ running).2 after reached⟩

/-- A line that is typed, or a script that is run by its text or by its path. -/
inductive Input where
  | typed (line : Text)
  | source (name text : Text)
  | script (path : Text)

def Input.run (setting : Setting σ) (bound : Nat) : Input → Action σ Bool
  | .typed line => runLine setting bound line
  | .source name text => runSource setting bound name text
  | .script path => runScript setting bound path

/-- The state after inputs, each of which begins where the one before it has ended or halted. -/
def afterAll (setting : Setting σ) (bound : Nat) (session : Session σ) : List Input → Session σ
  | [] => session
  | input :: rest => match input.run setting bound session with
    | .ok _ after | .error _ after => afterAll setting bound after rest

/-- What relates the states before and after each input, relates those before and after them all. -/
theorem afterAll_relates {relation : Session σ → Session σ → Prop} (chains : Chains relation)
    {setting : Setting σ} {bound : Nat}
    (runs : ∀ input : Input, Leads relation (input.run setting bound)) (first : Session σ)
    (inputs : List Input) : relation first (afterAll setting bound first inputs) := by
  induction inputs generalizing first with
  | nil => exact chains.stay first
  | cons input rest inductionHypothesis =>
      have ran := runs input first
      unfold Ends at ran
      rw [afterAll]
      cases isRun : input.run setting bound first with
      | ok outcome after =>
          rw [isRun] at ran
          exact chains.join ran (inductionHypothesis after)
      | error halt after =>
          rw [isRun] at ran
          exact chains.join ran (inductionHypothesis after)

end Session

end ManagementShell

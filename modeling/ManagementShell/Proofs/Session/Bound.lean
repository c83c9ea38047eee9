import ManagementShell.Proofs.Session.Course

/-
This file shows that what ends under a bound of frames, steps and calls ends in the same way under
every greater bound.
-/

namespace ManagementShell.Session
open Text

variable {σ α β : Type}

/-- The second action does what the first one does, unless that uses up its steps. -/
def Extended (first second : Action σ α) : Prop :=
  ∀ before, (∃ after, first before = .error .exhausted after) ∨ second before = first before

theorem Extended.refl (action : Action σ α) : Extended action action := fun _ => .inr rfl

theorem extended_of_exhausted (second : Action σ α) : Extended (throw .exhausted) second :=
  fun before => .inl ⟨before, rfl⟩

theorem Extended.ok {first second : Action σ α} (extended : Extended first second)
    {before after : Session σ} {value : α} (ran : first before = .ok value after) :
    second before = .ok value after := by
  rcases extended before with ⟨_, exhausted⟩ | same
  · cases ran.symm.trans exhausted
  · exact same.trans ran

theorem Extended.failed {first second : Action σ α} (extended : Extended first second)
    {before after : Session σ} {cause : Failure} (ran : first before = .error (.failed cause) after) :
    second before = .error (.failed cause) after := by
  rcases extended before with ⟨_, exhausted⟩ | same
  · cases ran.symm.trans exhausted
  · exact same.trans ran

theorem Extended.bind {first second : Action σ α} {next further : α → Action σ β}
    (begins : Extended first second) (ends : ∀ value, Extended (next value) (further value)) :
    Extended (first >>= next) (second >>= further) := by
  intro before
  rcases begins before with ⟨after, exhausted⟩ | same
  · exact .inl ⟨after, bind_of_eq_error exhausted next⟩
  · cases ran : first before with
    | ok value middle =>
        rw [bind_of_eq_ok ran, bind_of_eq_ok (same.trans ran)]
        exact ends value middle
    | error halt after =>
        rw [bind_of_eq_error ran, bind_of_eq_error (same.trans ran)]
        exact .inr rfl

/-- Only the second steps differ. -/
theorem Extended.after (first : Action σ α) {next further : α → Action σ β}
    (ends : ∀ value, Extended (next value) (further value)) :
    Extended (first >>= next) (first >>= further) := (Extended.refl first).bind ends

theorem Extended.ite {condition : Prop} [Decidable condition]
    {first second third fourth : Action σ α} (isTrue : Extended first third)
    (isFalse : Extended second fourth) :
    Extended (if condition then first else second) (if condition then third else fourth) := by
  split
  · exact isTrue
  · exact isFalse

theorem pollRun_extended (setting : Setting σ) (poll : Poll) (started : Nat) {calls more : Nat}
    (least : calls ≤ more) :
    Extended (Poll.run setting poll started calls) (Poll.run setting poll started more) := by
  induction calls generalizing more with
  | zero => exact extended_of_exhausted _
  | succ calls inductionHypothesis =>
      obtain ⟨more, rfl⟩ : ∃ fewer, more = fewer + 1 := ⟨more - 1, by omega⟩
      have goesOn := inductionHypothesis (Nat.le_of_succ_le_succ least)
      rw [pollRun_succ, pollRun_succ]
      refine Extended.after _ fun answered => .ite (.refl _) (Extended.after _ fun session => ?_)
      split
      · exact .refl _
      · exact .ite (.refl _) (Extended.after _ fun _ => goesOn)

theorem poll_extended (setting : Setting σ) {calls more : Nat} (least : calls ≤ more)
    (condition : Text) (words : List Text) :
    Extended (poll setting calls condition words) (poll setting more condition words) := by
  refine Extended.after _ fun expanded => ?_
  split
  · exact Extended.after _ fun times => Extended.after _ fun _ => Extended.after _ fun started =>
      pollRun_extended setting _ started least
  · exact .refl _

theorem inContext_extended (setting : Setting σ) (look : Text) {inner further : Action σ Bool}
    (extended : Extended inner further) :
    Extended (inContext setting look inner) (inContext setting look further) := by
  refine Extended.after _ fun expanded => Extended.after _ fun _ => Extended.after _ fun found => ?_
  cases found with
  | none => exact .refl _
  | some found =>
      intro before
      dsimp only [withContext]
      rcases extended { before with context := some (found.parent.getD found.node) } with
        ⟨after, exhausted⟩ | same
      · rw [exhausted]
        exact .inl ⟨_, rfl⟩
      · rw [same]
        exact .inr rfl

section

variable {setting : Setting σ} {calls more : Nat} {runFrame runFurther : Frame → Action σ Bool}

theorem jump_extended (extended : ∀ frame, Extended (runFrame frame) (runFurther frame))
    (target : Text) (isGosub : Bool) :
    Extended (jump setting runFrame target isGosub) (jump setting runFurther target isGosub) := by
  refine Extended.after _ fun session => ?_
  split
  · exact .refl _
  · refine Extended.after _ fun expanded => ?_
    split
    · exact Extended.after _ fun session => Extended.after _ fun other =>
        .ite (extended other) (.refl _)
    · exact .refl _

mutual

/-- The induction is on the command: inner commands and operators are parts of it. -/
theorem execute_extended (least : calls ≤ more)
    (extended : ∀ frame, Extended (runFrame frame) (runFurther frame)) (command : Command) :
    Extended (execute setting calls runFrame command) (execute setting more runFurther command) := by
  cases command with
  | batch path => exact Extended.after _ fun _ => Extended.after _ fun _ => Extended.after _ extended
  | context look inner =>
      exact inContext_extended setting look (execute_extended least extended inner)
  | gosub target => exact jump_extended extended target true
  | goto target => exact jump_extended extended target false
  | conditional condition inner =>
      exact Extended.after _ fun holds => .ite (execute_extended least extended inner) (.refl _)
  | poll condition words => exact poll_extended setting least condition words
  | invoke words condition operators =>
      have operate (answered : Bool) : Extended
          (if answered then executeAll setting calls runFrame operators else pure false)
          (if answered then executeAll setting more runFurther operators else pure false) :=
        .ite (executeAll_extended least extended operators) (.refl _)
      cases condition with
      | none => exact Extended.after _ operate
      | some condition => exact (poll_extended setting least condition words).bind operate
  | nothing | clear | count | find | findAll | log | print | quit | report | leave
  | listVariables | assign | evaluate | sleep | unset => exact .refl _

theorem executeAll_extended (least : calls ≤ more)
    (extended : ∀ frame, Extended (runFrame frame) (runFurther frame)) (commands : List Command) :
    Extended (executeAll setting calls runFrame commands)
      (executeAll setting more runFurther commands) := by
  cases commands with
  | nil => exact .refl _
  | cons first rest =>
      exact (execute_extended least extended first).bind fun succeeds =>
        .ite (executeAll_extended least extended rest) (.refl _)

end

theorem settle_extended {action further : Action σ Bool} (extended : Extended action further)
    (name : Text) (ignoresFailure : Bool) :
    Extended (settle name ignoresFailure action) (settle name ignoresFailure further) := by
  intro before
  unfold settle
  rcases extended before with ⟨after, exhausted⟩ | same
  · rw [exhausted]
    exact .inl ⟨after, rfl⟩
  · rw [same]
    exact .inr rfl

theorem executeLine_extended (least : calls ≤ more)
    (extended : ∀ frame, Extended (runFrame frame) (runFurther frame)) (text : Text) :
    Extended (executeLine setting calls runFrame text)
      (executeLine setting more runFurther text) := by
  refine Extended.after _ fun session => ?_
  split
  · exact .refl _
  · exact Extended.after _ fun _ => settle_extended (execute_extended least extended _) _ _

theorem turn_extended {line further : Text → Action σ Bool}
    (extended : ∀ text, Extended (line text) (further text)) (base : Nat) :
    Extended (turn line base) (turn further base) := by
  refine Extended.after _ fun session => .ite (.refl _) ?_
  split
  · exact .refl _
  · split
    · exact .refl _
    · exact Extended.after _ fun _ => (extended _).bind fun _ => .refl _

theorem drive_extended {line further : Text → Action σ Bool}
    (extended : ∀ text, Extended (line text) (further text)) (base : Nat) {count higher : Nat}
    (least : count ≤ higher) : Extended (drive line base count) (drive further base higher) := by
  induction count generalizing higher with
  | zero => exact extended_of_exhausted _
  | succ count inductionHypothesis =>
      obtain ⟨higher, rfl⟩ : ∃ fewer, higher = fewer + 1 := ⟨higher - 1, by omega⟩
      refine (turn_extended extended base).bind fun result => ?_
      cases result with
      | none => exact inductionHypothesis (Nat.le_of_succ_le_succ least)
      | some outcome => exact .refl _

theorem inFrame_extended (frame : Frame) {body further : Nat → Action σ Bool}
    (extended : ∀ base, Extended (body base) (further base)) :
    Extended (inFrame frame body) (inFrame frame further) := by
  intro before
  unfold inFrame
  rcases extended before.frames.length { before with frames := frame :: before.frames } with
    ⟨after, exhausted⟩ | same
  · rw [exhausted]
    exact .inl ⟨_, rfl⟩
  · rw [same]
    exact .inr rfl

end

/-- The induction is on the bound of the depth of frames. -/
theorem runFrame_extended (setting : Setting σ) {bound more : Nat} (least : bound ≤ more)
    (frame : Frame) : Extended (runFrame setting bound frame) (runFrame setting more frame) := by
  induction bound generalizing more frame with
  | zero => exact extended_of_exhausted _
  | succ bound inductionHypothesis =>
      obtain ⟨more, rfl⟩ : ∃ fewer, more = fewer + 1 := ⟨more - 1, by omega⟩
      have fewer := Nat.le_of_succ_le_succ least
      exact inFrame_extended frame fun base =>
        drive_extended (executeLine_extended fewer (inductionHypothesis fewer)) base fewer

theorem runLine_extended (setting : Setting σ) {bound more : Nat} (least : bound ≤ more)
    (text : Text) : Extended (runLine setting bound text) (runLine setting more text) :=
  executeLine_extended least (runFrame_extended setting least) text

/-- The same task with a bound that is greater by the given number. -/
def Task.raise (more : Nat) : Task → Task
  | .runFrame bound frame => .runFrame (more + bound) frame
  | .runLine bound text => .runLine (more + bound) text
  | .execute bound command => .execute (more + bound) command
  | .executeAll bound commands => .executeAll (more + bound) commands
  | .poll bound condition words => .poll (more + bound) condition words
  | .pollOn current started calls => .pollOn current started (more + calls)
  | .call words => .call words

/-- What a task ends with, it ends with under every greater bound. -/
theorem Task.raise_extended (setting : Setting σ) (more : Nat) (task : Task) :
    Extended (task.run setting) ((task.raise more).run setting) := by
  cases task with
  | runFrame bound frame => exact runFrame_extended setting (Nat.le_add_left bound more) frame
  | runLine bound text => exact runLine_extended setting (Nat.le_add_left bound more) text
  | execute bound command =>
      exact execute_extended (Nat.le_add_left bound more)
        (runFrame_extended setting (Nat.le_add_left bound more)) command
  | executeAll bound commands =>
      exact executeAll_extended (Nat.le_add_left bound more)
        (runFrame_extended setting (Nat.le_add_left bound more)) commands
  | poll bound condition words =>
      exact poll_extended setting (Nat.le_add_left bound more) condition words
  | pollOn current started calls =>
      exact pollRun_extended setting current started (Nat.le_add_left calls more)
  | call words => exact .refl _

theorem Task.raise_raise (more further : Nat) (task : Task) :
    (task.raise more).raise further = task.raise (further + more) := by
  cases task <;> simp [Task.raise, Nat.add_assoc]

theorem Task.ofInvoke_raise (more bound : Nat) (words : List Text) (condition : Option Text) :
    (Task.ofInvoke bound words condition).raise more =
      Task.ofInvoke (more + bound) words condition := by
  cases condition <;> rfl

theorem Heads.extended {line further : Text → Action σ Bool} {base : Nat}
    {first head : Session σ} (extended : ∀ text, Extended (line text) (further text))
    (reached : Heads line base first head) : Heads further base first head := by
  induction reached with
  | first => exact .first
  | next _ turned inductionHypothesis =>
      exact .next inductionHypothesis ((turn_extended extended base).ok turned)

/-- To drive a frame from a head of its loop is to drive it on, under every greater bound. -/
theorem Heads.drive {line : Text → Action σ Bool} {base : Nat} {first head : Session σ}
    (reached : Heads line base first head) :
    ∃ turns, ∀ {further : Text → Action σ Bool}, (∀ text, Extended (line text) (further text)) →
      ∀ count, Session.drive further base (count + turns) first =
        Session.drive further base count head := by
  induction reached with
  | first => exact ⟨0, fun _ _ => rfl⟩
  | @next head after _ turned inductionHypothesis =>
      obtain ⟨turns, same⟩ := inductionHypothesis
      refine ⟨turns + 1, fun extended count => ?_⟩
      rw [← Nat.add_assoc, Nat.add_right_comm, same extended (count + 1), Session.drive,
        bind_of_eq_ok ((turn_extended extended base).ok turned)]

/-- The stage with a greater bound. -/
def Stage.raise (more : Nat) (stage : Stage σ) : Stage σ := ⟨stage.task.raise more, stage.before⟩

/-- A session comes to the same stages under a greater bound. -/
theorem Part.raise {setting : Setting σ} {whole stage : Stage σ} (part : Part setting whole stage)
    (more : Nat) : Part setting (whole.raise more) (stage.raise more) := by
  cases part with
  | @line bound frame before head _ _ _ _ isHead goesOn running isLine begins =>
      have raised : FrameHeads setting (more + bound + 1) frame before head :=
        isHead.extended (runLine_extended setting (Nat.le_add_left bound more))
      exact .line raised goesOn running isLine begins
  | command reads echoes => exact .command reads echoes
  | batch expands loads => exact .batch expands loads
  | gosub runs expands leads enters => exact .gosub runs expands leads enters
  | context expands isCondition finds => exact .context expands isCondition finds
  | conditional isTrue => exact .conditional isTrue
  | poll => exact .poll
  | @invoke bound words condition operators before =>
      have same := Task.ofInvoke_raise more bound words condition
      rw [Stage.raise, Stage.raise, same]
      exact .invoke
  | @operators bound words condition operators before after answers =>
      have raised := (Task.raise_extended setting more _).ok answers
      rw [Task.ofInvoke_raise] at raised
      exact .operators raised
  | first => exact .first
  | @rest bound command _ _ _ succeeds =>
      exact .rest ((Task.raise_extended setting more (.execute bound command)).ok succeeds)
  | pollOn expands isCondition times named starts =>
      exact .pollOn expands isCondition times named starts
  | call => exact .call
  | again answers isTree differs waits => exact .again answers isTree differs waits

end ManagementShell.Session

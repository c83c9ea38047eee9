import ManagementShell.Proofs.Session.Nesting
import ManagementShell.Proofs.Text.Blank

/-
This file shows how failures travel: a failure ends the operators of its line, the frame of the line
and the line that has started the frame, up to a line whose failure is ignored.
-/

namespace ManagementShell

open Text

/-- A line is read with the mark that it begins with. -/
theorem Line.read_marked (isScript : Text → Bool) (text : Text) :
    Gives (Line.read isScript text) (fun line => line.ignoresFailure = Session.isMarked text)
      fun _ => True := by
  have begins : Session.isMarked text = ((trim text).head? == some '-') := by
    unfold Session.isMarked trim
    cases isStart : trimStart text with
    | nil => rfl
    | cons first rest =>
        have visible := List.head?_dropWhile_not isBlank text
        rw [← trimStart, isStart] at visible
        rw [head?_trimEnd rest (by simpa using visible)]
        rfl
  have reads (rest : Text) {ignores : Bool} (same : ignores = Session.isMarked text) :
      Gives ((Command.read isScript rest).map fun command => Line.mk ignores command)
        (fun line => line.ignoresFailure = Session.isMarked text) fun _ => True := by
    rw [gives_map]
    cases Command.read isScript rest with
    | ok command => exact same
    | error fault => trivial
  rw [Line.read.eq_def]
  split
  · simp [*]
  · simp [*]
  · simp [*]
  · exact reads _ (by simp [*])
  · rename_i unmarked
    refine reads _ ?_
    rw [begins]
    cases isTrimmed : trim text with
    | nil => rfl
    | cons first rest => simpa using fun isHyphen => unmarked rest (by rw [isTrimmed, isHyphen])

namespace Session

variable {σ : Type} {setting : Setting σ}

/-- Since a failure, nothing has happened but that failures were reported, frames were taken off and
the place of execution was put back. -/
structure Unwinds (failed last : Session σ) : Prop where
  frames : last.frames <:+ failed.frames
  values : ∀ name, name ≠ Variable.line → name ≠ Variable.script →
    last.store.stored? name = failed.store.stored? name
  defaults : last.store.defaults = failed.store.defaults
  response : last.response = failed.response
  log : last.log = failed.log
  quits : last.quits = failed.quits
  clock : last.readings = failed.readings ∧ last.slept = failed.slept
  connection : ∃ reports : List Record, (∀ report ∈ reports, report.level = .error) ∧
    last.connection = { failed.connection with
      events := failed.connection.events ++ reports.map .record }

theorem unwinds_chains : Chains (Unwinds (σ := σ)) where
  stay session := ⟨List.suffix_rfl, fun _ _ _ => rfl, rfl, rfl, rfl, rfl, ⟨rfl, rfl⟩,
    [], List.forall_mem_nil _, by simp⟩
  join first second := by
    obtain ⟨early, earlyErrors, earlyEvents⟩ := first.connection
    obtain ⟨late, lateErrors, lateEvents⟩ := second.connection
    refine ⟨second.frames.trans first.frames, fun name notLine notScript => ?_,
      second.defaults.trans first.defaults, second.response.trans first.response,
      second.log.trans first.log, second.quits.trans first.quits,
      ⟨second.clock.1.trans first.clock.1, second.clock.2.trans first.clock.2⟩,
      early ++ late, ?_, ?_⟩
    · exact (second.values name notLine notScript).trans (first.values name notLine notScript)
    · exact fun report member => (List.mem_append.mp member).elim (earlyErrors report)
        (lateErrors report)
    · rw [lateEvents, earlyEvents, List.map_append, List.append_assoc]

/-- The report of a failure. -/
theorem report_unwinds (session : Session σ) (message : Text) :
    session.Unwinds (session.addEvent (.record ⟨.error, message⟩)) :=
  ⟨List.suffix_rfl, fun _ _ _ => rfl, rfl, rfl, rfl, rfl, ⟨rfl, rfl⟩, [⟨.error, message⟩],
    by simp, rfl⟩

theorem dropContext_unwinds (session : Session σ) :
    session.Unwinds { session with context := none } :=
  ⟨List.suffix_rfl, fun _ _ _ => rfl, rfl, rfl, rfl, rfl, ⟨rfl, rfl⟩, [], by simp, by simp⟩

theorem restore_defaults (store : Store) (name : Text) (value : Option Value) :
    (restore store name value).defaults = store.defaults := by
  cases value <;> rfl

theorem leaveFrame_unwinds (before after : Session σ) : after.Unwinds (leaveFrame before after) where
  frames := List.drop_suffix _ _
  values name notLine notScript := by
    simp [leaveFrame, restore_stored?, notLine, notScript]
  defaults := by simp [leaveFrame, restore_defaults]
  response := rfl
  log := rfl
  quits := rfl
  clock := ⟨rfl, rfl⟩
  connection := ⟨[], List.forall_mem_nil _, by simp [leaveFrame]⟩

/-- The result is no success, and it is not that the steps are used up. -/
def IsFailure (result : EStateM.Result Halt (Session σ) Bool) (failed : Session σ) : Prop :=
  result = .ok false failed ∨ ∃ cause, result = .error (.failed cause) failed

/-- The stage does not succeed; the state is the one that it ends in. -/
def Stage.Fails (setting : Setting σ) (stage : Stage σ) (failed : Session σ) : Prop :=
  IsFailure (stage.result setting) failed

theorem Stage.Fails.raise {stage : Stage σ} {failed : Session σ} (fails : stage.Fails setting failed)
    (more : Nat) : (stage.raise more).Fails setting failed := by
  have extended := Task.raise_extended setting more stage.task
  rcases fails with unsuccessful | ⟨cause, caused⟩
  · exact .inl (extended.ok unsuccessful)
  · exact .inr ⟨cause, extended.failed caused⟩

theorem andThen_fails {action : Action σ Bool} {before failed : Session σ}
    (fails : IsFailure (action before) failed) (next : Action σ Bool) :
    IsFailure (andThen action next before) failed := by
  rcases fails with unsuccessful | ⟨cause, caused⟩
  · exact .inl (bind_of_eq_ok unsuccessful _)
  · exact .inr ⟨cause, bind_of_eq_error caused _⟩

theorem dropContext_fails {result : EStateM.Result Halt (Session σ) Bool} {failed : Session σ}
    (fails : IsFailure result failed) :
    IsFailure (dropContext result) { failed with context := none } := by
  rcases fails with rfl | ⟨cause, rfl⟩
  · exact .inl rfl
  · exact .inr ⟨cause, rfl⟩

/-- Inside a line, nothing is done after a part that fails. -/
theorem Sequel.fails {whole stage : Stage σ} (sequel : Sequel setting whole stage)
    {failed : Session σ} (fails : stage.Fails setting failed) :
    ∃ last, failed.Unwinds last ∧ whole.Fails setting last := by
  have stays := unwinds_chains.stay failed
  unfold Stage.Fails at *
  cases sequel with
  | same ends => exact ⟨failed, stays, ends ▸ fails⟩
  | operators _ rest _ ends => exact ⟨failed, stays, ends ▸ andThen_fails fails _⟩
  | polls _ next ends => exact ⟨failed, stays, ends ▸ andThen_fails fails next⟩
  | context ends => exact ⟨_, dropContext_unwinds failed, ends ▸ dropContext_fails fails⟩

/-- The line cannot be read, or its command fails; the state is the one before the report. -/
inductive LineFails (setting : Setting σ) (bound : Nat) (text : Text) (before : Session σ) :
    Session σ → Prop
  | unread {fault} (unread : Line.read before.connection.files.isFile text = .error fault) :
      LineFails setting bound text before before
  | command {stage failed} (part : Part setting ⟨.runLine bound text, before⟩ stage)
      (fails : stage.Fails setting failed) : LineFails setting bound text before failed

/-- A failure is reported, and the mark decides. -/
theorem settle_of_fails {action : Action σ Bool} {before failed : Session σ}
    (fails : IsFailure (action before) failed) (name : Text) (ignoresFailure : Bool) :
    ∃ message, settle name ignoresFailure action before =
      .ok ignoresFailure (failed.addEvent (.record ⟨.error, message⟩)) := by
  unfold settle
  rcases fails with unsuccessful | ⟨cause, caused⟩
  · rw [unsuccessful]
    exact ⟨_, rfl⟩
  · rw [caused]
    exact ⟨_, rfl⟩

/-- A line that fails ends with the report of its failure, and succeeds only if it is marked. -/
theorem LineFails.ends {bound : Nat} {text : Text} {before failed : Session σ}
    (fails : LineFails setting bound text before failed) :
    ∃ message, runLine setting bound text before =
      .ok (isMarked text) (failed.addEvent (.record ⟨.error, message⟩)) := by
  cases fails with
  | unread unread =>
      rw [runLine, executeLine, get_bind, unread]
      exact ⟨_, rfl⟩
  | command part fails =>
      cases part with
      | @command _ _ _ line ready reads echoes =>
          have same := gives_of_eq_ok reads (Line.read_marked _ text)
          rw [runLine_of_read reads echoes, ← same]
          exact settle_of_fails fails _ _

/-- A part of a stage that is no marked line. -/
def Carries (setting : Setting σ) (whole stage : Stage σ) : Prop :=
  Part setting whole stage ∧ ∀ bound text, whole.task = .runLine bound text → isMarked text = false

/-- A line that has been executed with success leaves its frame at a head of the loop. -/
theorem Part.frameHead {bound lineBound : Nat} {frame : Frame} {before begun last : Session σ}
    {text : Text} (part : Part setting ⟨.runFrame bound frame, before⟩ ⟨.runLine lineBound text, begun⟩)
    (succeeds : runLine setting lineBound text begun = .ok true last) :
    FrameHeads setting bound frame before last := by
  cases part with
  | line isHead goesOn running isLine begins =>
      refine .next isHead ?_
      rw [turn_of_line goesOn isHead.above running isLine begins]
      exact bind_of_eq_ok succeeds _

/-- A frame ends with the failure of one of its lines. -/
theorem Part.frameFails {bound lineBound : Nat} {frame : Frame} {before begun failed : Session σ}
    {text : Text} (part : Part setting ⟨.runFrame bound frame, before⟩ ⟨.runLine lineBound text, begun⟩)
    (fails : Stage.Fails setting ⟨.runLine lineBound text, begun⟩ failed) :
    ∃ enough, Stage.Fails setting (.raise enough ⟨.runFrame bound frame, before⟩)
      (leaveFrame before failed) := by
  cases part with
  | @line _ _ _ head innermost below _ _ isHead goesOn running isLine begins =>
      obtain ⟨enough, runs⟩ := isHead.runs
      obtain ⟨count, same⟩ := runs enough (Nat.le_refl _)
      have turned : turn (runLine setting (enough + lineBound)) before.frames.length head = _ :=
        turn_of_line goesOn isHead.above running isLine begins
      refine ⟨enough, ?_⟩
      change IsFailure (runFrame setting (enough + (lineBound + 1)) frame before) _
      rw [same, drive]
      rcases fails.raise enough with unsuccessful | ⟨cause, caused⟩
      · rw [bind_of_eq_ok (turned.trans (bind_of_eq_ok unsuccessful _))]
        exact .inl rfl
      · rw [bind_of_eq_error (turned.trans (bind_of_eq_error caused _))]
        exact .inr ⟨cause, rfl⟩

/-- The failure of a part that is no marked line is the failure of the whole. -/
theorem Carries.fails {whole stage : Stage σ} (carries : Carries setting whole stage)
    {failed : Session σ} (fails : stage.Fails setting failed) :
    ∃ last, failed.Unwinds last ∧ ∃ enough, (whole.raise enough).Fails setting last := by
  obtain ⟨part, unmarked⟩ := carries
  obtain ⟨task, before⟩ := whole
  by_cases isFrame : ∃ bound frame, task = .runFrame bound frame
  · obtain ⟨bound, frame, rfl⟩ := isFrame
    obtain ⟨lineBound, text, begun, rfl⟩ := part.isLine
    exact ⟨_, leaveFrame_unwinds before failed, part.frameFails fails⟩
  by_cases isLine : ∃ bound text, task = .runLine bound text
  · obtain ⟨bound, text, rfl⟩ := isLine
    obtain ⟨message, ends⟩ := (LineFails.command part fails).ends
    rw [unmarked bound text rfl] at ends
    have wholeFails : Stage.Fails setting ⟨.runLine bound text, before⟩ _ := .inl ends
    exact ⟨_, report_unwinds failed message, 0, wholeFails.raise 0⟩
  · have sequel := part.sequel (fun bound frame same => isFrame ⟨bound, frame, same⟩)
      (fun bound text same => isLine ⟨bound, text, same⟩)
    obtain ⟨last, unwinds, wholeFails⟩ := sequel.fails fails
    exact ⟨last, unwinds, 0, wholeFails.raise 0⟩

theorem Carries.raise {whole stage : Stage σ} (carries : Carries setting whole stage) (more : Nat) :
    Carries setting (whole.raise more) (stage.raise more) := by
  refine ⟨carries.1.raise more, fun bound text isLine => ?_⟩
  obtain ⟨task, before⟩ := whole
  cases task with
  | runLine lineBound line =>
      cases isLine
      exact carries.2 lineBound text rfl
  | runFrame | execute | executeAll | poll | pollOn | call => cases isLine

/-- A failure travels as far as no line on its way is marked; the induction is on the way. -/
theorem fails_of_carries {whole stage : Stage σ}
    (way : Relation.ReflTransGen (Carries setting) whole stage) {failed : Session σ}
    (fails : stage.Fails setting failed) :
    ∃ last, failed.Unwinds last ∧ ∃ enough, ∀ more ≥ enough,
      (whole.raise more).Fails setting last := by
  induction way using Relation.ReflTransGen.head_induction_on with
  | refl => exact ⟨failed, unwinds_chains.stay failed, 0, fun more _ => fails.raise more⟩
  | @head whole part carries _ inductionHypothesis =>
      obtain ⟨middle, unwinds, enough, partFails⟩ := inductionHypothesis
      obtain ⟨last, further, least, wholeFails⟩ :=
        (carries.raise enough).fails (partFails enough (Nat.le_refl _))
      refine ⟨last, unwinds_chains.join unwinds further, least + enough, fun more atLeast => ?_⟩
      have raised := wholeFails.raise (more - (least + enough))
      simp only [Stage.raise, Task.raise_raise] at raised
      rwa [Nat.sub_add_cancel atLeast] at raised

/-- A frame that fails returns, without a cause. -/
theorem runFrame_of_fails {bound : Nat} {frame : Frame} {before last : Session σ}
    (fails : Stage.Fails setting ⟨.runFrame bound frame, before⟩ last) :
    runFrame setting bound frame before = .ok false last := by
  refine fails.resolve_right fun ⟨cause, caused⟩ => ?_
  cases (ends_of_eq_error caused (runFrame_ran setting bound frame before)).1

theorem lineFails_of_runLine {bound : Nat} {text : Text} {before after : Session σ}
    (ran : runLine setting bound text before = .ok false after) :
    isMarked text = false ∧ ∃ failed, LineFails setting bound text before failed := by
  have known {failed : Session σ} (fails : LineFails setting bound text before failed) :
      isMarked text = false ∧ ∃ failed, LineFails setting bound text before failed := by
    obtain ⟨message, ends⟩ := fails.ends
    injection ends.symm.trans ran with unmarked
    exact ⟨unmarked, failed, fails⟩
  rw [runLine, executeLine, get_bind] at ran
  cases reads : Line.read before.connection.files.isFile text with
  | error fault => exact known (.unread reads)
  | ok line =>
      rw [reads] at ran
      dsimp only at ran
      cases echoes : onlyIf (!line.command.isNothing ∧ callLevel < before.store.verbosityLevel)
          (echo setting text) before with
      | error halt last => cases (bind_of_eq_error echoes _).symm.trans ran
      | ok _ ready =>
          have settled := (bind_of_eq_ok echoes _).symm.trans ran
          unfold settle at settled
          have part : Part setting ⟨.runLine bound text, before⟩ ⟨.execute bound line.command, ready⟩ :=
            .command reads echoes
          split at settled
          · cases settled
          · rename_i unsuccessful
            exact known (.command part (.inl unsuccessful))
          · rename_i caused
            exact known (.command part (.inr ⟨_, caused⟩))
          · cases settled

/-- A turn that ends its frame without success has run a line without success. -/
theorem turn_unsuccessful {line : Text → Action σ Bool} {base : Nat} {head last : Session σ}
    (ran : turn line base head = .ok (some false) last) :
    ∃ innermost below text begun, head.quits = false ∧ head.frames = innermost :: below ∧
      innermost.lines[innermost.cursor]? = some text ∧
      begin innermost below head = .ok () begun ∧ line text begun = .ok false last := by
  rw [turn, get_bind] at ran
  by_cases ended : head.quits = true ∨ head.frames.length ≤ base
  · rw [if_pos ended] at ran
    cases ran
  rw [if_neg ended] at ran
  cases running : head.frames with
  | nil =>
      rw [running] at ran
      cases ran
  | cons innermost below =>
      rw [running] at ran
      dsimp only at ran
      cases isLine : innermost.lines[innermost.cursor]? with
      | none =>
          rw [isLine] at ran
          cases ran
      | some text =>
          rw [isLine] at ran
          have goesOn : head.quits = false := by simpa using (not_or.mp ended).1
          refine ⟨innermost, below, text, _, goesOn, rfl, isLine, rfl, ?_⟩
          have lineRan := (bind_of_eq_ok rfl _).symm.trans ran
          cases ends : line text _ with
          | error halt after => cases (bind_of_eq_error ends _).symm.trans lineRan
          | ok succeeds after =>
              have concludes := (bind_of_eq_ok ends _).symm.trans lineRan
              cases succeeds with
              | true => cases concludes
              | false =>
                  cases concludes
                  rfl

/-- The induction is on the number of turns. -/
theorem drive_unsuccessful {line : Text → Action σ Bool} {base count : Nat}
    {first last : Session σ} (ran : drive line base count first = .ok false last) :
    ∃ head, Heads line base first head ∧ turn line base head = .ok (some false) last := by
  have shown (count : Nat) (head : Session σ) (isHead : Heads line base first head)
      (ran : drive line base count head = .ok false last) :
      ∃ head, Heads line base first head ∧ turn line base head = .ok (some false) last := by
    induction count generalizing head with
    | zero => cases ran
    | succ count inductionHypothesis =>
        rw [drive] at ran
        cases turned : turn line base head with
        | error halt after => cases (bind_of_eq_error turned _).symm.trans ran
        | ok result after =>
            rw [bind_of_eq_ok turned] at ran
            cases result with
            | none => exact inductionHypothesis after (.next isHead turned) ran
            | some outcome =>
                cases ran
                exact ⟨head, isHead, turned⟩
  exact shown count first .first ran

/-- A frame that ends without success has run an unmarked line that fails. -/
theorem runFrame_unsuccessful {bound : Nat} {frame : Frame} {before after : Session σ}
    (ran : runFrame setting bound frame before = .ok false after) :
    ∃ lineBound text begun failed,
      Part setting ⟨.runFrame bound frame, before⟩ ⟨.runLine lineBound text, begun⟩ ∧
      LineFails setting lineBound text begun failed ∧ isMarked text = false := by
  cases bound with
  | zero => cases ran
  | succ bound =>
      rw [runFrame, inFrame_eq] at ran
      cases drives : drive (runLine setting bound) before.frames.length bound
          { before with frames := frame :: before.frames } with
      | error halt last => cases (congrArg (leaving before) drives).symm.trans ran
      | ok outcome last =>
          cases (congrArg (leaving before) drives).symm.trans ran
          obtain ⟨head, isHead, turned⟩ := drive_unsuccessful drives
          obtain ⟨innermost, below, text, begun, goesOn, running, isLine, begins, lineRan⟩ :=
            turn_unsuccessful turned
          obtain ⟨unmarked, failed, fails⟩ := lineFails_of_runLine lineRan
          exact ⟨bound, text, begun, failed, .line isHead goesOn running isLine begins, fails,
            unmarked⟩

/-- What becomes of the failures of lines, in every setting and under every bound. -/
structure FailuresTravel (setting : Setting σ) : Prop where
  /-- A line that fails reports its failure, and counts as a success only if it is marked. -/
  line {bound : Nat} {text : Text} {before failed : Session σ}
    (fails : LineFails setting bound text before failed) :
    ∃ message, runLine setting bound text before =
      .ok (isMarked text) (failed.addEvent (.record ⟨.error, message⟩))
  /-- The failure of an unmarked line is the end of its frame. -/
  frame {bound lineBound : Nat} {frame : Frame} {text : Text} {before begun failed : Session σ}
    (part : Part setting ⟨.runFrame bound frame, before⟩ ⟨.runLine lineBound text, begun⟩)
    (unmarked : isMarked text = false) (fails : LineFails setting lineBound text begun failed) :
    ∃ last, failed.Unwinds last ∧ ∃ enough, ∀ more ≥ enough,
      runFrame setting (more + bound) frame before = .ok false last
  /-- What fails inside a line, however deep, is the failure of the line, unless it is inside a
  marked line that is itself inside the line. -/
  nested {bound : Nat} {text : Text} {before failed : Session σ} {command stage : Stage σ}
    (part : Part setting ⟨.runLine bound text, before⟩ command)
    (way : Relation.ReflTransGen (Carries setting) command stage)
    (fails : stage.Fails setting failed) :
    ∃ last, failed.Unwinds last ∧ ∃ enough, ∀ more ≥ enough,
      LineFails setting (more + bound) text before last
  /-- After the failure of a marked line, its frame goes on at the cursor. -/
  marked {bound lineBound : Nat} {frame : Frame} {text : Text} {before begun failed : Session σ}
    (part : Part setting ⟨.runFrame bound frame, before⟩ ⟨.runLine lineBound text, begun⟩)
    (marks : isMarked text = true) (fails : LineFails setting lineBound text begun failed) :
    ∃ head, failed.Unwinds head ∧ head.frames = failed.frames ∧
      FrameHeads setting bound frame before head ∧
      ∀ innermost below next, head.quits = false → head.frames = innermost :: below →
        innermost.lines[innermost.cursor]? = some next →
        ∃ nextBegun, begin innermost below head = .ok () nextBegun ∧
          Part setting ⟨.runFrame bound frame, before⟩ ⟨.runLine lineBound next, nextBegun⟩
  /-- A script succeeds unless one of its own lines fails that is not marked. -/
  source {bound : Nat} {name source : Text} {before after : Session σ} {outcome : Bool}
    (ran : runSource setting bound name source before = .ok outcome after) :
    outcome = true ↔ ∀ lineBound text begun failed,
      Part setting ⟨.runFrame bound (.ofSource name source false), before⟩
        ⟨.runLine lineBound text, begun⟩ →
      LineFails setting lineBound text begun failed → isMarked text = true

theorem LineFails.unwinds {bound : Nat} {text : Text} {before failed : Session σ}
    (fails : LineFails setting bound text before failed) :
    ∃ last, failed.Unwinds last ∧ last.frames = failed.frames ∧
      runLine setting bound text before = .ok (isMarked text) last := by
  obtain ⟨message, ends⟩ := fails.ends
  exact ⟨_, report_unwinds failed message, rfl, ends⟩

theorem frame_of_lineFails {bound lineBound : Nat} {frame : Frame} {text : Text}
    {before begun failed : Session σ}
    (part : Part setting ⟨.runFrame bound frame, before⟩ ⟨.runLine lineBound text, begun⟩)
    (unmarked : isMarked text = false) (fails : LineFails setting lineBound text begun failed) :
    ∃ last, failed.Unwinds last ∧ ∃ enough, ∀ more ≥ enough,
      runFrame setting (more + bound) frame before = .ok false last := by
  obtain ⟨reported, unwinds, -, ends⟩ := fails.unwinds
  rw [unmarked] at ends
  have lineFails : Stage.Fails setting ⟨.runLine lineBound text, begun⟩ reported := .inl ends
  have carries : Carries setting ⟨.runFrame bound frame, before⟩ ⟨.runLine lineBound text, begun⟩ :=
    ⟨part, fun _ _ isLine => nomatch isLine⟩
  obtain ⟨last, further, enough, frameFails⟩ := fails_of_carries (.single carries) lineFails
  exact ⟨last, unwinds_chains.join unwinds further, enough,
    fun more least => runFrame_of_fails (frameFails more least)⟩

/-- Failures travel so through every nesting of scripts. -/
theorem failures_travel (setting : Setting σ) : FailuresTravel setting where
  line fails := fails.ends
  frame part unmarked fails := frame_of_lineFails part unmarked fails
  nested part way fails := by
    obtain ⟨last, unwinds, enough, commandFails⟩ := fails_of_carries way fails
    exact ⟨last, unwinds, enough,
      fun more least => .command (part.raise more) (commandFails more least)⟩
  marked part marks fails := by
    obtain ⟨head, unwinds, frames, ends⟩ := fails.unwinds
    rw [marks] at ends
    refine ⟨head, unwinds, frames, part.frameHead ends,
      fun innermost below next goesOn running isLine => ⟨_, rfl, ?_⟩⟩
    have isHead := part.frameHead ends
    cases part with
    | line => exact .line isHead goesOn running isLine rfl
  source {bound name source before after outcome} ran := by
    constructor
    · rintro rfl lineBound text begun failed part fails
      by_contra unmarked
      obtain ⟨last, -, enough, frameFails⟩ :=
        frame_of_lineFails part (by simpa using unmarked) fails
      have further := (runFrame_extended setting (Nat.le_add_left bound enough) _).ok ran
      cases further.symm.trans (frameFails enough (Nat.le_refl _))
    · intro onlyMarked
      by_contra unsuccessful
      rw [Bool.not_eq_true] at unsuccessful
      subst unsuccessful
      obtain ⟨lineBound, text, begun, failed, part, fails, unmarked⟩ := runFrame_unsuccessful ran
      cases unmarked.symm.trans (onlyMarked lineBound text begun failed part fails)

/-- There is a script that calls a script that does not exist. -/
def nesting : Session (List (Except Text Text)) :=
  start quietDefaults [] ⟨[], [(["inner"], encode "Batch nowhere\nQuit")]⟩

/-- The failure in the inner script fails the line that starts it, and ends the outer script only
where that line is not marked. -/
theorem failures_travel_nested :
    outcome (runSource .plain 4 "outer" "-Batch inner" nesting) = .ok true ∧
      ∃ lineBound text begun failed,
        Part .plain ⟨.runFrame 4 (.ofSource "outer" "-Batch inner\nBatch inner" false), nesting⟩
          ⟨.runLine lineBound text, begun⟩ ∧
        LineFails .plain lineBound text begun failed ∧ isMarked text = false := by
  have ends : outcome (runSource .plain 4 "outer" "-Batch inner\nBatch inner" nesting) =
      .ok false := by decide +kernel
  have source := (failures_travel .plain).source (eq_ok_of_outcome ends)
  refine ⟨by decide +kernel, ?_⟩
  by_contra none
  exact Bool.false_ne_true (source.mpr fun lineBound text begun failed part fails =>
    by_contra fun unmarked => none ⟨lineBound, text, begun, failed, part, fails, by simpa using unmarked⟩)

end Session

end ManagementShell

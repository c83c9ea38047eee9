import ManagementShell.Proofs.Session.Scope
import ManagementShell.Proofs.Variable.Changes

/-
This file shows that a session changes its variables in no other way than a script can, and by
noting the place of execution.
-/

namespace ManagementShell

variable {σ : Type}

/-- The relation holds along every run of changes of the variables. -/
structure Store.Lasts (relation : Store → Store → Prop) : Prop where
  chains : Chains relation
  change : ∀ (store : Store) (change : Store.Change), relation store (change.apply store)

namespace Session
open Text

/-- The variables before and after are so related. -/
abbrev Varies (relation : Store → Store → Prop) : Session σ → Session σ → Prop :=
  InvImage relation Session.store

section

variable {relation : Store → Store → Prop} (lasts : Store.Lasts relation)
include lasts

theorem varies_chains : Chains (Varies (σ := σ) relation) where
  stay session := lasts.chains.stay session.store
  join first second := lasts.chains.join first second

theorem varies_of_same {before after : Session σ} (same : after.store = before.store) :
    Varies relation before after := by
  change relation before.store after.store
  rw [same]
  exact lasts.chains.stay before.store

theorem modify_varies {change : Session σ → Session σ}
    (same : ∀ session, (change session).store = session.store) :
    Leads (Varies relation) (modify change : Action σ PUnit) :=
  leads_modify fun session => varies_of_same lasts (same session)

theorem emit_varies (event : Event) : Leads (Varies relation) (emit event : Action σ Unit) :=
  modify_varies lasts fun _ => rfl

theorem fail_varies {α : Type} (cause : Failure) :
    Leads (Varies relation) (fail cause : Action σ α) := leads_throw (varies_chains lasts) _

theorem check_varies {α : Type} (outcome : Except Failure α) :
    Leads (Varies relation) (check outcome : Action σ α) := by
  cases outcome with
  | ok value => exact leads_pure (varies_chains lasts) value
  | error cause => exact fail_varies lasts cause

theorem expand_varies (setting : Setting σ) (text : Text) :
    Leads (Varies relation) (expand setting text) := (varies_chains lasts).stay

theorem onConnection_varies {α : Type} (action : EStateM Failure (Connection σ) α) :
    Leads (Varies relation) (onConnection action) := by
  intro session
  rw [ends_onConnection]
  exact (ends_anything action _).weaken (fun _ _ _ => varies_of_same lasts rfl)
    (fun _ _ _ => varies_of_same lasts rfl)

theorem recordAll_varies (entries : List Record) :
    Leads (Varies relation) (recordAll entries : Action σ Unit) := by
  induction entries with
  | nil => exact leads_pure (varies_chains lasts) _
  | cons entry rest inductionHypothesis =>
      exact Leads.bind (varies_chains lasts) (modify_varies lasts fun _ => rfl)
        fun _ => inductionHypothesis

theorem addToLog_varies (text : Text) : Leads (Varies relation) (addToLog text : Action σ Unit) := by
  refine modify_varies lasts fun session => ?_
  split <;> rfl

theorem write_varies (text : Text) : Leads (Varies relation) (write text : Action σ Unit) :=
  Leads.bind (varies_chains lasts) (modify_varies lasts fun _ => rfl)
    fun _ => addToLog_varies lasts text

theorem lookAtClock_varies (clock : Clock) :
    Leads (Varies relation) (lookAtClock clock : Action σ Nat) :=
  fun _ => varies_of_same lasts rfl

theorem reportFailure_varies (message : Text) :
    Leads (Varies relation) (reportFailure message : Action σ Unit) :=
  Leads.bind (varies_chains lasts) (leads_get (varies_chains lasts))
    fun _ => modify_varies lasts fun _ => rfl

/-- Setting a variable is one change. -/
theorem assign_varies (name value : Text) :
    Leads (Varies relation) (assign name value : Action σ Unit) := by
  intro session
  have changed := lasts.change session.store (.set name value)
  simp only [assign, ends_bind, ends_get]
  simp only [Store.Change.apply] at changed
  cases isSet : session.store.set name value with
  | error cause => exact (varies_chains lasts).stay session
  | ok result =>
      rw [isSet] at changed
      exact (recordAll_varies lasts result.2).after (varies_chains lasts) changed

theorem bind_varies (name : Text) (value : Value) :
    Leads (Varies relation) (bind name value : Action σ Unit) := by
  intro session
  have changed := lasts.change session.store (.bind name value)
  simp only [bind, ends_bind, ends_get]
  simp only [Store.Change.apply] at changed
  cases isBound : session.store.bind name value with
  | error cause => exact (varies_chains lasts).stay session
  | ok store =>
      rw [isBound] at changed
      exact changed

theorem clear_varies (name : Text) : Leads (Varies relation) (clear name : Action σ Unit) :=
  leads_modify fun session => lasts.change session.store (.clear name)

theorem unset_varies (name : Text) : Leads (Varies relation) (unset name : Action σ Bool) := by
  intro session
  have changed := lasts.change session.store (.unset name)
  simp only [unset, ends_bind, ends_get]
  simp only [Store.Change.apply] at changed
  cases isUnset : session.store.unset name with
  | error cause => exact (varies_chains lasts).stay session
  | ok result =>
      rw [isUnset] at changed
      exact changed

theorem findQuery_varies (look : Text) (name : Option Text) (position : Option Nat) :
    Leads (Varies relation) (findQuery look name position : Action σ (Option Match)) := by
  have chains := varies_chains (σ := σ) lasts
  apply Leads.bind chains
  · cases name with
    | none => exact leads_pure chains _
    | some name => exact clear_varies lasts name
  · intro _
    split
    · exact fail_varies lasts _
    · apply Leads.bind chains (leads_get chains)
      intro session
      split
      · exact Leads.bind chains (modify_varies lasts fun _ => rfl) fun _ => leads_pure chains _
      · split
        · exact Leads.bind chains (bind_varies lasts _ _) fun _ => leads_pure chains _
        · exact leads_pure chains _

theorem find_varies (setting : Setting σ) (look : Text) (name position : Option Text) :
    Leads (Varies relation) (find setting look name position) := by
  have chains := varies_chains (σ := σ) lasts
  apply Leads.bind chains (expand_varies lasts setting look)
  intro expanded
  split
  · exact findQuery_varies lasts _ _ _
  · apply Leads.bind chains (expand_varies lasts setting _)
    intro position
    split
    · exact findQuery_varies lasts _ _ _
    · exact leads_pure chains _

theorem findAll_varies (setting : Setting σ) (field name : Text) :
    Leads (Varies relation) (findAll setting field name) := by
  have chains := varies_chains (σ := σ) lasts
  apply Leads.bind chains (expand_varies lasts setting field)
  intro expanded
  apply Leads.bind chains (clear_varies lasts name)
  intro _
  apply Leads.bind chains (leads_get chains)
  intro session
  split
  · exact Leads.bind chains (emit_varies lasts _) fun _ => leads_pure chains _
  · split
    · exact leads_pure chains _
    · exact Leads.bind chains (bind_varies lasts _ _) fun _ => leads_pure chains _

theorem count_varies (name : Text) : Leads (Varies relation) (count name : Action σ Bool) :=
  Leads.bind (varies_chains lasts) (leads_get (varies_chains lasts)) fun _ =>
    Leads.bind (varies_chains lasts) (bind_varies lasts _ _) fun _ =>
      leads_pure (varies_chains lasts) _

theorem report_varies (setting : Setting σ) (fields : Text) (filter : Option Text) :
    Leads (Varies relation) (report setting fields filter) := by
  have chains := varies_chains (σ := σ) lasts
  apply Leads.bind chains (expand_varies lasts setting fields)
  intro expanded
  apply Leads.bind chains
  · cases filter with
    | none => exact leads_pure chains _
    | some filter =>
        apply Leads.bind chains (expand_varies lasts setting filter)
        intro text
        split
        · exact leads_pure chains _
        · exact fail_varies lasts _
  · intro pair
    apply Leads.bind chains (leads_get chains)
    intro session
    apply Leads.bind chains (recordAll_varies lasts _)
    intro _
    split
    · exact Leads.bind chains (write_varies lasts _) fun _ => leads_pure chains _
    · exact leads_pure chains _

theorem holds_varies (setting : Setting σ) (condition : Text) :
    Leads (Varies relation) (holds setting condition) := by
  have chains := varies_chains (σ := σ) lasts
  unfold holds
  split
  · exact fail_varies lasts _
  · exact Leads.bind chains (expand_varies lasts setting _) fun _ =>
      Leads.bind chains (expand_varies lasts setting _) fun _ => leads_pure chains _

theorem evaluate_varies (setting : Setting σ) (name expression : Text) :
    Leads (Varies relation) (evaluate setting name expression) := by
  have chains := varies_chains (σ := σ) lasts
  apply Leads.bind chains (expand_varies lasts setting expression)
  intro expanded
  split
  · exact Leads.bind chains (assign_varies lasts _ _) fun _ => leads_pure chains _
  · exact fail_varies lasts _

theorem sleepFor_varies (setting : Setting σ) (text : Text) :
    Leads (Varies relation) (sleepFor setting text) := by
  have chains := varies_chains (σ := σ) lasts
  apply Leads.bind chains (expand_varies lasts setting text)
  intro expanded
  split
  · exact Leads.bind chains (modify_varies lasts fun _ => rfl) fun _ => leads_pure chains _
  · exact fail_varies lasts _

theorem openLog_varies (path : Text) (mode : Option Text) :
    Leads (Varies relation) (openLog path mode : Action σ Unit) := by
  apply Leads.bind (varies_chains lasts) (check_varies lasts _)
  intro keeps session
  simp only [ends_bind, ends_get]
  split
  · exact (varies_chains lasts).stay session
  · exact varies_of_same lasts rfl

theorem changeLog_varies (setting : Setting σ) (path mode : Option Text) :
    Leads (Varies relation) (changeLog setting path mode) := by
  have chains := varies_chains (σ := σ) lasts
  refine Leads.bind chains (modify_varies lasts fun _ => rfl) fun _ => ?_
  cases path with
  | none => exact leads_pure chains _
  | some path =>
      apply Leads.bind chains (expand_varies lasts setting path)
      intro expanded
      apply Leads.bind chains
      · cases mode with
        | none => exact leads_pure chains _
        | some mode => exact chains.stay
      · intro expandedMode
        exact Leads.bind chains (openLog_varies lasts _ _) fun _ => leads_pure chains _

theorem expandAll_varies (setting : Setting σ) (words : List Text) :
    Leads (Varies relation) (expandAll setting words) := fun before =>
  (expandAll_ends setting words before).weaken (fun _ _ same => varies_of_same lasts (by rw [same.1]))
    (fun _ _ never => never.elim)

theorem exchange_varies (setting : Setting σ) (request : Request) :
    Leads (Varies relation) (exchange setting request) := by
  have chains := varies_chains (σ := σ) lasts
  have displays (text : Text) : Leads (Varies relation) (display text : Action σ Unit) :=
    emit_varies lasts _
  apply Leads.bind chains (leads_get chains)
  intro session
  apply Leads.bind chains
  · refine onlyIf_leads chains (Leads.bind chains (displays _) fun _ => ?_)
    split
    · exact displays _
    · exact leads_pure chains _
  · intro _
    apply Leads.bind chains (lookAtClock_varies lasts _)
    intro started
    apply Leads.bind chains (onConnection_varies lasts _)
    intro output
    apply Leads.bind chains (onlyIf_leads chains (displays _))
    intro _
    apply Leads.bind chains (addToLog_varies lasts _)
    intro _
    refine Leads.bind chains (onlyIf_leads chains ?_) fun _ => leads_pure chains _
    exact Leads.bind chains (lookAtClock_varies lasts _) fun _ => write_varies lasts _

/-- A call leaves the variables as they are. -/
theorem call_varies (setting : Setting σ) (words : List Text) :
    Leads (Varies relation) (call setting words) := by
  have chains := varies_chains (σ := σ) lasts
  apply Leads.bind chains
  · apply Leads.bind chains (expandAll_varies lasts setting words)
    intro expanded
    apply Leads.bind chains (emit_varies lasts _)
    intro _
    apply Leads.bind chains (leads_get chains)
    intro session
    apply Leads.bind chains (check_varies lasts _)
    intro read
    apply Leads.bind chains (recordAll_varies lasts _)
    intro _
    refine Leads.bind chains (modify_varies lasts fun _ => rfl) fun _ => ?_
    exact Leads.bind chains (leads_get chains) fun _ => onConnection_varies lasts _
  · intro request
    apply Leads.bind chains (exchange_varies lasts setting request)
    intro response
    exact Leads.bind chains (modify_varies lasts fun _ => rfl) fun _ => leads_pure chains _

/-- The induction is on the number of calls that the poll may make. -/
theorem pollRun_varies (setting : Setting σ) (poll : Poll) (started calls : Nat) :
    Leads (Varies relation) (poll.run setting started calls) := by
  have chains := varies_chains (σ := σ) lasts
  induction calls with
  | zero => exact leads_throw chains _
  | succ calls inductionHypothesis =>
      rw [pollRun_succ]
      apply Leads.bind chains (call_varies lasts setting _)
      intro answered
      split
      · exact leads_pure chains _
      · apply Leads.bind chains (leads_get chains)
        intro session
        split
        · exact leads_pure chains _
        · split
          · exact leads_pure chains _
          · refine Leads.bind chains ?_ fun _ => inductionHypothesis
            apply Leads.bind chains (leads_get chains)
            intro waiting
            apply Leads.bind chains (onlyIf_leads chains (emit_varies lasts _))
            intro _
            refine Leads.bind chains (modify_varies lasts fun _ => rfl) fun _ => ?_
            exact Leads.bind chains (lookAtClock_varies lasts _) fun _ =>
              onlyIf_leads chains (fail_varies lasts _)

theorem poll_varies (setting : Setting σ) (calls : Nat) (condition : Text) (words : List Text) :
    Leads (Varies relation) (poll setting calls condition words) := by
  have chains := varies_chains (σ := σ) lasts
  apply Leads.bind chains (expand_varies lasts setting condition)
  intro expanded
  split
  · have timed : Leads (Varies relation) (timing setting words) := chains.stay
    apply Leads.bind chains timed
    intro times
    apply Leads.bind chains (onlyIf_leads chains (fail_varies lasts _))
    intro _
    exact Leads.bind chains (lookAtClock_varies lasts _) fun _ => pollRun_varies lasts setting _ _ _
  · exact fail_varies lasts _

/-- A return moves a frame and nothing else. -/
theorem leave_varies : Leads (Varies relation) (leave : Action σ Bool) := by
  intro session
  apply ends_leave
  case fails => exact fun _ => (varies_chains lasts).stay session
  case leaves => exact fun _ _ _ _ _ => varies_of_same lasts rfl

section

variable {setting : Setting σ} {calls : Nat} {runFrame : Frame → Action σ Bool}

theorem jump_varies (nested : ∀ frame, Leads (Varies relation) (runFrame frame)) (target : Text)
    (isGosub : Bool) : Leads (Varies relation) (jump setting runFrame target isGosub) := by
  intro session
  apply ends_jump
  case fails => exact fun _ => (varies_chains lasts).stay session
  case runs => exact fun _ _ other _ _ => nested other session
  case replaces => exact fun _ _ _ _ _ _ _ _ => varies_of_same lasts rfl
  case moves => exact fun _ _ _ _ _ _ => varies_of_same lasts rfl

theorem batch_varies (nested : ∀ frame, Leads (Varies relation) (runFrame frame)) (path : Text) :
    Leads (Varies relation) (batch setting runFrame path) := by
  have chains := varies_chains (σ := σ) lasts
  apply Leads.bind chains (expand_varies lasts setting path)
  intro expanded
  apply Leads.bind chains (leads_get chains)
  intro session
  exact Leads.bind chains (check_varies lasts _) nested

mutual

/-- A command changes the variables as scripts can, if the scripts that it runs do so. The induction
is on the command. -/
theorem execute_varies (nested : ∀ frame, Leads (Varies relation) (runFrame frame))
    (command : Command) : Leads (Varies relation) (execute setting calls runFrame command) := by
  have chains := varies_chains (σ := σ) lasts
  match command with
  | .nothing => exact leads_pure chains _
  | .batch path => exact batch_varies lasts nested path
  | .clear => exact Leads.bind chains (modify_varies lasts fun _ => rfl) fun _ => leads_pure chains _
  | .context look inner =>
      apply Leads.bind chains (expand_varies lasts setting look)
      intro expanded
      apply Leads.bind chains (onlyIf_leads chains (fail_varies lasts _))
      intro _
      apply Leads.bind chains (find_varies lasts setting expanded none none)
      intro found
      cases found with
      | none => exact fail_varies lasts _
      | some found =>
          intro before
          exact withContext_ends ((execute_varies nested inner _).weaken (fun _ _ varies => varies)
            (fun _ _ varies => varies))
  | .count name => exact count_varies lasts name
  | .find look name position =>
      exact Leads.bind chains (find_varies lasts setting look name position) fun _ =>
        leads_pure chains _
  | .findAll field name => exact findAll_varies lasts setting field name
  | .gosub target => exact jump_varies lasts nested target true
  | .goto target => exact jump_varies lasts nested target false
  | .conditional condition inner =>
      apply Leads.bind chains (holds_varies lasts setting condition)
      intro holds
      split
      · exact execute_varies nested inner
      · exact leads_pure chains _
  | .log path mode => exact changeLog_varies lasts setting path mode
  | .print text =>
      exact Leads.bind chains (expand_varies lasts setting text) fun _ =>
        Leads.bind chains (write_varies lasts _) fun _ => leads_pure chains _
  | .quit => exact Leads.bind chains (modify_varies lasts fun _ => rfl) fun _ => leads_pure chains _
  | .report fields filter => exact report_varies lasts setting fields filter
  | .leave => exact leave_varies lasts
  | .listVariables =>
      exact Leads.bind chains (leads_get chains) fun _ =>
        Leads.bind chains (write_varies lasts _) fun _ => leads_pure chains _
  | .assign name value =>
      exact Leads.bind chains (expand_varies lasts setting value) fun _ =>
        Leads.bind chains (assign_varies lasts name _) fun _ => leads_pure chains _
  | .evaluate name expression => exact evaluate_varies lasts setting name expression
  | .sleep seconds => exact sleepFor_varies lasts setting seconds
  | .unset name => exact unset_varies lasts name
  | .poll condition words => exact poll_varies lasts setting calls condition words
  | .invoke words condition operators =>
      have operate (answered : Bool) : Leads (Varies relation)
          (if answered then executeAll setting calls runFrame operators else pure false) := by
        split
        · exact executeAll_varies nested operators
        · exact leads_pure chains _
      cases condition with
      | none => exact Leads.bind chains (call_varies lasts setting words) operate
      | some condition =>
          exact Leads.bind chains (poll_varies lasts setting calls condition words) operate

theorem executeAll_varies (nested : ∀ frame, Leads (Varies relation) (runFrame frame))
    (commands : List Command) :
    Leads (Varies relation) (executeAll setting calls runFrame commands) := by
  have chains := varies_chains (σ := σ) lasts
  match commands with
  | [] => exact leads_pure chains _
  | first :: rest =>
      apply Leads.bind chains (execute_varies nested first)
      intro succeeds
      split
      · exact executeAll_varies nested rest
      · exact leads_pure chains _

end

omit lasts in
/-- The echo of a line leaves the variables as they are. -/
theorem echo_store (setting : Setting σ) (condition : Prop) [Decidable condition] (text : Text)
    (before : Session σ) :
    Ends (onlyIf condition (echo setting text)) before (fun _ after => after.store = before.store)
      (fun _ _ => False) := by
  unfold onlyIf
  split <;> rfl

theorem executeLine_varies (nested : ∀ frame, Leads (Varies relation) (runFrame frame))
    (text : Text) : Leads (Varies relation) (executeLine setting calls runFrame text) := by
  have chains := varies_chains (σ := σ) lasts
  apply Leads.bind chains (leads_get chains)
  intro session
  split
  · exact Leads.bind chains (reportFailure_varies lasts _) fun _ => leads_pure chains _
  · rename_i line _
    refine Leads.bind chains (fun before => ?_) fun _ =>
      settle_leads chains (reportFailure_varies lasts) (execute_varies lasts nested line.command) _ _
    exact (echo_store setting _ text before).weaken (fun _ _ same => varies_of_same lasts same)
      (fun _ _ never => never.elim)

end

section

variable (marks : ∀ (store : Store) (name : Text) (value : Option Value),
  name = Variable.line ∨ name = Variable.script → relation store (restore store name value))
include marks

/-- Both parts of the place of execution are noted. -/
theorem marked (store : Store) (line script : Option Value) :
    relation store (restore (restore store Variable.line line) Variable.script script) :=
  lasts.chains.join (marks store _ line (.inl rfl)) (marks _ _ script (.inr rfl))

theorem turn_varies {line : Text → Action σ Bool}
    (lines : ∀ text, Leads (Varies relation) (line text)) (base : Nat) :
    Leads (Varies relation) (turn line base) := by
  have chains := varies_chains (σ := σ) lasts
  apply Leads.bind chains (leads_get chains)
  intro session
  split
  · exact leads_pure chains _
  · split
    · exact leads_pure chains _
    · rename_i frame below _
      split
      · exact leads_pure chains _
      · have begins : Leads (Varies relation) (begin frame below : Action σ Unit) := fun before =>
          marked lasts marks before.store (some (.integer (frame.cursor + 1))) (some (.text frame.name))
        apply Leads.bind chains begins
        intro _
        apply Leads.bind chains (lines _)
        intro succeeds
        split
        · exact leads_pure chains _
        · exact leads_pure chains _

theorem drive_varies {line : Text → Action σ Bool}
    (lines : ∀ text, Leads (Varies relation) (line text)) (base count : Nat) :
    Leads (Varies relation) (drive line base count) := by
  have chains := varies_chains (σ := σ) lasts
  induction count with
  | zero => exact leads_throw chains _
  | succ count inductionHypothesis =>
      apply Leads.bind chains (turn_varies lasts marks lines base)
      rintro (_ | outcome)
      · exact inductionHypothesis
      · exact leads_pure chains _

/-- Whole scripts change the variables so, if noting the place of execution does. The induction is
on the bound of the depth of frames. -/
theorem runFrame_varies (setting : Setting σ) (bound : Nat) (frame : Frame) :
    Leads (Varies relation) (runFrame setting bound frame) := by
  have chains := varies_chains (σ := σ) lasts
  induction bound generalizing frame with
  | zero => exact leads_throw chains _
  | succ bound inductionHypothesis =>
      intro before
      have lines (text : Text) :
          Leads (Varies relation) (executeLine setting bound (runFrame setting bound) text) :=
        executeLine_varies lasts inductionHypothesis text
      have left {after : Session σ} (varies : Varies relation before after) :
          Varies relation before (leaveFrame before after) :=
        chains.join varies (marked lasts marks after.store _ _)
      exact inFrame_ends ((drive_varies lasts marks lines before.frames.length bound _).weaken
        (fun _ _ varies => left varies) (fun _ _ varies => left varies))

theorem input_varies (setting : Setting σ) (bound : Nat) (input : Input) :
    Leads (Varies relation) (input.run setting bound) := by
  have chains := varies_chains (σ := σ) lasts
  cases input with
  | typed line => exact executeLine_varies lasts (runFrame_varies lasts marks setting bound) line
  | source name text => exact runFrame_varies lasts marks setting bound _
  | script path =>
      apply Leads.bind chains (leads_get chains)
      intro session
      split
      · exact runFrame_varies lasts marks setting bound _
      · exact Leads.bind chains (emit_varies lasts _) fun _ => leads_pure chains _

end

end

/-- Whatever inputs are run, the variables stay well named. -/
theorem afterAll_wellNamed (setting : Setting σ) (bound : Nat) {first : Session σ}
    (named : first.store.WellNamed) (inputs : List Input) :
    (afterAll setting bound first inputs).store.WellNamed := by
  let relation (before after : Store) : Prop := before.WellNamed → after.WellNamed
  have lasts : Store.Lasts relation :=
    ⟨⟨fun _ => id, fun first second => second ∘ first⟩, fun _ change named => named.apply change⟩
  have marks (store : Store) (name : Text) (value : Option Value)
      (isMark : name = Variable.line ∨ name = Variable.script) :
      relation store (restore store name value) := by
    intro named
    have storable : Variable.isStorable name = true := by rcases isMark with rfl | rfl <;> decide
    cases value with
    | none => exact named.remove name
    | some value => exact named.put storable value
  exact afterAll_relates (varies_chains lasts) (input_varies lasts marks setting bound) first inputs
    named

end Session

end ManagementShell

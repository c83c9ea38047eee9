import ManagementShell.Proofs.Cause
import ManagementShell.Proofs.Extraction.Values
import ManagementShell.Proofs.Session.Course

/-
This file shows how a call ends, and how a poll ends after a number of calls.
-/

namespace ManagementShell

variable {σ : Type}

/-- What the peer answers to an invocation is returned, or it is the failure. -/
theorem Connection.send_answers (peer : Peer σ) (invocation : Invocation) (before : Connection σ) :
    Ends (send peer invocation) before
      (fun output _ => (peer.answer invocation before.files before.peer).1 = .ok output)
      (fun cause _ => ∃ reason, cause = .transport reason ∧
        (peer.answer invocation before.files before.peer).1 = .error reason) := by
  simp only [send, ends_bind, ends_get, ends_set]
  split
  · assumption
  · exact ⟨_, rfl, ‹_›⟩

/-- The action has halted for a failure of a call. -/
def Halt.IsOfCall (halt : Halt) : Prop := ∃ cause, halt = .failed cause ∧ cause.isOfCall = true

namespace Session
open Text

variable {setting : Setting σ}

theorem request_haltsFor (setting : Setting σ) (words : List Text) :
    HaltsFor Halt.IsOfCall (request setting words) := by
  intro before
  rw [request, ends_bind]
  refine (expandAll_ends setting words before).weaken (fun expanded middle same => ?_)
    (fun _ _ never => never.elim)
  simp only [emit, ends_bind, ends_modify, ends_get]
  cases expanded with
  | nil => exact ⟨_, rfl, rfl⟩
  | cons method arguments =>
      rw [Call.ofWords, check, ends_pure]
      refine (recordAll_ends _ _).weaken (fun _ recorded _ => ?_) (fun _ _ never => never.elim)
      rw [ends_onConnection]
      exact (Connection.build_haltsOfCall _ _ _ _).weaken (fun _ _ _ => trivial)
        (fun cause _ isOfCall => ⟨cause, rfl, isOfCall⟩)

theorem onlyIf_haltsFor {property : Halt → Prop} {condition : Prop} [Decidable condition]
    {action : Action σ Unit} (halts : HaltsFor property action) :
    HaltsFor property (onlyIf condition action) := by
  unfold onlyIf
  split
  · exact halts
  · exact haltsFor_pure _

/-- The time can always be shown. -/
theorem showTime_haltsFor (setting : Setting σ) (method : Text) (started : Nat) :
    HaltsFor (fun _ => False) (showTime setting method started) :=
  HaltsFor.bind (fun _ => trivial) fun _ =>
    HaltsFor.bind (haltsFor_modify _) fun _ => haltsFor_modify _

theorem announce_quiet (request : Request) (before : Session σ) :
    Ends (announce request) before
      (fun _ after => after.connection.files = before.connection.files ∧
        after.connection.peer = before.connection.peer) (fun _ _ => False) := by
  unfold announce
  simp only [display, emit, ends_bind, ends_modify]
  split
  · exact ⟨rfl, rfl⟩
  · exact ⟨rfl, rfl⟩

/-- The answer of the peer at the start of an exchange is what the exchange ends with. -/
theorem exchange_asks (setting : Setting σ) (request : Request) (before : Session σ) :
    Ends (exchange setting request) before
      (fun response _ => ∃ output, (setting.peer.answer request.invocation before.connection.files
        before.connection.peer).1 = .ok output ∧ response = .ofOutput output.text)
      (fun halt _ => ∃ reason, halt = .failed (.transport reason) ∧
        (setting.peer.answer request.invocation before.connection.files
          before.connection.peer).1 = .error reason) := by
  have shows : Ends (onlyIf (quietLevel < before.store.verbosityLevel) (announce request)) before
      (fun _ after => after.connection.files = before.connection.files ∧
        after.connection.peer = before.connection.peer) (fun _ _ => False) := by
    unfold onlyIf
    split
    · exact announce_quiet request before
    · exact ⟨rfl, rfl⟩
  have never {action : Action σ Unit} (halts : HaltsFor (fun _ => False) action)
      {before : Session σ} {done halted} (next : ∀ after, done () after) :
      Ends action before done halted :=
    (halts before).weaken (fun _ after _ => next after) (fun _ _ impossible => impossible.elim)
  rw [exchange, ends_bind, ends_get, ends_bind]
  refine shows.weaken (fun _ announced same => ?_) (fun _ _ never => never.elim)
  rw [ends_bind]
  change Ends _ { announced with readings := announced.readings + 1 } _ _
  rw [ends_bind, ends_onConnection]
  refine (Connection.send_answers setting.peer request.invocation _).weaken
    (fun output after answered => ?_) (fun cause after failed => ?_)
  · simp only [ends_bind, ends_pure]
    refine never (onlyIf_haltsFor (haltsFor_modify _)) fun _ => ?_
    refine never (haltsFor_modify _) fun _ => ?_
    refine never (onlyIf_haltsFor (showTime_haltsFor setting _ _)) fun _ => ?_
    rw [same.1, same.2] at answered
    exact ⟨output, answered, rfl⟩
  · obtain ⟨reason, rfl, failed⟩ := failed
    rw [same.1, same.2] at failed
    exact ⟨reason, rfl, failed⟩

/-- How a call ends: it cannot be built; or it is sent, once, and the peer fails; or it is sent, once,
and the answer is the new response. Nothing but output stands beside the invocation. -/
inductive Calls (setting : Setting σ) (words : List Text) (before : Session σ) :
    EStateM.Result Halt (Session σ) Bool → Prop
  | unbuilt {cause after} (builds : request setting words before = .error (.failed cause) after)
      (isOfCall : cause.isOfCall = true) : Calls setting words before (.error (.failed cause) after)
  | unanswered {built ready reason after} (builds : request setting words before = .ok built ready)
      (sends : Exchanges built.invocation ready after)
      (fails : (setting.peer.answer built.invocation ready.connection.files
        ready.connection.peer).1 = .error reason) :
      Calls setting words before (.error (.failed (.transport reason)) after)
  | answered {built ready output after} (builds : request setting words before = .ok built ready)
      (sends : Exchanges built.invocation ready after)
      (answers : (setting.peer.answer built.invocation ready.connection.files
        ready.connection.peer).1 = .ok output) :
      Calls setting words before (.ok (!(Response.ofOutput output.text).isEmpty)
        { after with response := .ofOutput output.text })

theorem call_calls (setting : Setting σ) (words : List Text) (before : Session σ) :
    Calls setting words before (call setting words before) := by
  cases builds : request setting words before with
  | error halt after =>
      obtain ⟨cause, rfl, isOfCall⟩ := ends_of_eq_error builds (request_haltsFor setting words before)
      rw [call, bind_of_eq_error builds]
      exact .unbuilt builds isOfCall
  | ok built ready =>
      rw [call, bind_of_eq_ok builds]
      cases exchanged : exchange setting built ready with
      | error halt after =>
          obtain ⟨reason, rfl, fails⟩ := ends_of_eq_error exchanged (exchange_asks setting built ready)
          have sends := ends_of_eq_error exchanged (exchange_exchanges setting built ready)
          rw [bind_of_eq_error exchanged]
          exact .unanswered builds sends fails
      | ok response after =>
          obtain ⟨output, answers, rfl⟩ := ends_of_eq_ok exchanged (exchange_asks setting built ready)
          have sends := ends_of_eq_ok exchanged (exchange_exchanges setting built ready)
          rw [bind_of_eq_ok exchanged]
          exact .answered builds sends answers

theorem call_halts {words : List Text} {before after : Session σ} {halt : Halt}
    (calls : call setting words before = .error halt after) : halt.IsOfCall := by
  have how := call_calls setting words before
  rw [calls] at how
  cases how with
  | unbuilt _ isOfCall => exact ⟨_, rfl, isOfCall⟩
  | unanswered => exact ⟨_, rfl, rfl⟩

namespace Poll

/-- The session after the reason to go on has been shown. -/
def informed (poll : Poll) (root : Element) (after : Session σ) : Session σ :=
  if callLevel < after.store.verbosityLevel then after.addEvent (.screen (poll.progress root))
  else after

/-- The session after a sleep and a look at the clock. -/
def slept (poll : Poll) (after : Session σ) : Session σ :=
  { after with
    slept := after.slept + poll.interval * 1000000000
    readings := after.readings + 1 }

/-- The session after the wait that follows a call without the value. -/
def rested (poll : Poll) (root : Element) (after : Session σ) : Session σ :=
  poll.slept (poll.informed root after)

/-- The time from the start of the poll to the end of the wait. -/
def elapsed (setting : Setting σ) (poll : Poll) (started : Nat) (after : Session σ) : Nat :=
  setting.clock.reading after.readings + (after.slept + poll.interval * 1000000000) - started

variable {poll : Poll} {started : Nat}

theorem elapsed_informed (root : Element) (after : Session σ) :
    poll.elapsed setting started (poll.informed root after) = poll.elapsed setting started after := by
  unfold informed
  split <;> rfl

theorem wait_eq (root : Element) (after : Session σ) : poll.wait setting started root after =
    if poll.timeout * 1000000000 < poll.elapsed setting started after then
      .error (.failed (.timeout poll.timeout)) (poll.rested root after)
    else .ok () (poll.rested root after) := by
  have shows : onlyIf (callLevel < after.store.verbosityLevel) (display (poll.progress root)) after =
      .ok () (poll.informed root after) := by
    unfold onlyIf informed
    split <;> rfl
  rw [wait, get_bind, bind_of_eq_ok shows, ← elapsed_informed root, rested]
  generalize poll.informed root after = ready
  have looks : (do
      sleep poll.interval
      lookAtClock setting.clock : Action σ Nat) ready =
        .ok (setting.clock.reading ready.readings + (ready.slept + poll.interval * 1000000000))
          (poll.slept ready) := rfl
  rw [← bind_assoc, bind_of_eq_ok looks, elapsed]
  by_cases late : poll.timeout * 1000000000 <
      setting.clock.reading ready.readings + (ready.slept + poll.interval * 1000000000) - started
  · rw [if_pos late, onlyIf, if_pos late]
    rfl
  · rw [if_neg late, onlyIf, if_neg late]
    rfl

/-- A call decides a poll, unless its answer lacks the value and there is time left. -/
theorem run_succ (calls : Nat) (current : Session σ) :
    poll.run setting started (calls + 1) current =
      match call setting poll.words current with
      | .error halt after => .error halt after
      | .ok false after => .ok false after
      | .ok true after => match after.response.tree with
        | none => .ok false after
        | some root =>
            if poll.value ∈ root.values poll.field then .ok true after
            else if poll.timeout * 1000000000 < poll.elapsed setting started after then
              .error (.failed (.timeout poll.timeout)) (poll.rested root after)
            else poll.run setting started calls (poll.rested root after) := by
  rw [pollRun_succ]
  cases called : call setting poll.words current with
  | error halt after => rw [bind_of_eq_error called]
  | ok answered after =>
      rw [bind_of_eq_ok called]
      cases answered with
      | false => rfl
      | true =>
          rw [if_neg (by decide), get_bind]
          dsimp only
          cases after.response.tree with
          | none => rfl
          | some root =>
              dsimp only
              have found := Query.find?_isSome poll.field poll.value root.rootPlace
              by_cases has : poll.value ∈ root.values poll.field
              · rw [query, if_pos (found.mpr has), if_pos has]
                rfl
              · rw [query, if_neg (mt found.mp has), if_neg has]
                have waits : poll.wait setting started root after = _ := wait_eq root after
                split at waits
                · rename_i late
                  rw [if_pos late, bind_of_eq_error waits]
                · rename_i inTime
                  rw [if_neg inTime, bind_of_eq_ok waits]

/-- A call is answered without the value, and at the end of the wait there is time left. -/
def GoesOn (setting : Setting σ) (poll : Poll) (started : Nat) (current next : Session σ) : Prop :=
  ∃ after root, call setting poll.words current = .ok true after ∧
    after.response.tree = some root ∧ poll.value ∉ root.values poll.field ∧
    poll.elapsed setting started after ≤ poll.timeout * 1000000000 ∧ next = poll.rested root after

/-- The poll goes on after each of this many calls. -/
inductive Tries (setting : Setting σ) (poll : Poll) (started : Nat) :
    Nat → Session σ → Session σ → Prop
  | none (begun : Session σ) : Tries setting poll started 0 begun begun
  | more {count begun next last} (goesOn : poll.GoesOn setting started begun next)
      (tries : Tries setting poll started count next last) :
      Tries setting poll started (count + 1) begun last

/-- The next call is the last one of the poll. -/
inductive Settles (setting : Setting σ) (poll : Poll) (started : Nat) (current : Session σ) :
    EStateM.Result Halt (Session σ) Bool → Prop
  | found {after root} (calls : call setting poll.words current = .ok true after)
      (isTree : after.response.tree = some root) (has : poll.value ∈ root.values poll.field) :
      Settles setting poll started current (.ok true after)
  | empty {after} (calls : call setting poll.words current = .ok false after) :
      Settles setting poll started current (.ok false after)
  | unreadable {after} (calls : call setting poll.words current = .ok true after)
      (noTree : after.response.tree = none) : Settles setting poll started current (.ok false after)
  | late {after root} (calls : call setting poll.words current = .ok true after)
      (isTree : after.response.tree = some root) (lacks : poll.value ∉ root.values poll.field)
      (late : poll.timeout * 1000000000 < poll.elapsed setting started after) :
      Settles setting poll started current
        (.error (.failed (.timeout poll.timeout)) (poll.rested root after))
  | failed {halt after} (calls : call setting poll.words current = .error halt after) :
      Settles setting poll started current (.error halt after)

theorem run_of_settles {current : Session σ} {result : EStateM.Result Halt (Session σ) Bool}
    (settles : poll.Settles setting started current result) (calls : Nat) :
    poll.run setting started (calls + 1) current = result := by
  rw [run_succ]
  cases settles with
  | found calls isTree has => simp only [calls, isTree, if_pos has]
  | empty calls => simp only [calls]
  | unreadable calls noTree => simp only [calls, noTree]
  | late calls isTree lacks late => simp only [calls, isTree, if_neg lacks, if_pos late]
  | failed calls => simp only [calls]

theorem run_of_goesOn {current next : Session σ} (goesOn : poll.GoesOn setting started current next)
    (calls : Nat) :
    poll.run setting started (calls + 1) current = poll.run setting started calls next := by
  obtain ⟨after, root, called, isTree, lacks, inTime, rfl⟩ := goesOn
  rw [run_succ]
  simp only [called, isTree, if_neg lacks, if_neg (Nat.not_lt.mpr inTime)]

/-- After each call the poll settles or goes on. -/
theorem settles_or_goesOn (setting : Setting σ) (poll : Poll) (started : Nat)
    (current : Session σ) : (∃ result, poll.Settles setting started current result) ∨
      ∃ next, poll.GoesOn setting started current next := by
  cases called : call setting poll.words current with
  | error halt after => exact .inl ⟨_, .failed called⟩
  | ok answered after =>
      cases answered with
      | false => exact .inl ⟨_, .empty called⟩
      | true =>
          cases isTree : after.response.tree with
          | none => exact .inl ⟨_, .unreadable called isTree⟩
          | some root =>
              by_cases has : poll.value ∈ root.values poll.field
              · exact .inl ⟨_, .found called isTree has⟩
              · rcases Nat.lt_or_ge (poll.timeout * 1000000000)
                  (poll.elapsed setting started after) with late | inTime
                · exact .inl ⟨_, .late called isTree has late⟩
                · exact .inr ⟨_, after, root, called, isTree, has, inTime, rfl⟩

section

variable {current after last : Session σ}

theorem settles_found_iff : poll.Settles setting started current (.ok true after) ↔
    call setting poll.words current = .ok true after ∧
      ∃ root ∈ after.response.tree, poll.value ∈ root.values poll.field := by
  constructor
  · intro settles
    cases settles with
    | found calls isTree has => exact ⟨calls, _, isTree, has⟩
  · rintro ⟨calls, root, isTree, has⟩
    exact .found calls isTree has

theorem settles_stopped_iff : poll.Settles setting started current (.ok false after) ↔
    call setting poll.words current = .ok false after ∨
      call setting poll.words current = .ok true after ∧ after.response.tree = none := by
  constructor
  · intro settles
    cases settles with
    | empty calls => exact .inl calls
    | unreadable calls noTree => exact .inr ⟨calls, noTree⟩
  · rintro (calls | ⟨calls, noTree⟩)
    · exact .empty calls
    · exact .unreadable calls noTree

/-- A call does not time out, only a poll does. -/
theorem settles_late_iff {seconds : Nat} :
    poll.Settles setting started current (.error (.failed (.timeout seconds)) last) ↔
      seconds = poll.timeout ∧ ∃ after root, call setting poll.words current = .ok true after ∧
        after.response.tree = some root ∧ poll.value ∉ root.values poll.field ∧
        poll.timeout * 1000000000 < poll.elapsed setting started after ∧
        last = poll.rested root after := by
  constructor
  · intro settles
    cases settles with
    | late calls isTree lacks late => exact ⟨rfl, _, _, calls, isTree, lacks, late, rfl⟩
    | failed calls =>
        obtain ⟨cause, isCause, isOfCall⟩ := call_halts calls
        cases isCause
        cases isOfCall
  · rintro ⟨rfl, after, root, calls, isTree, lacks, late, rfl⟩
    exact .late calls isTree lacks late

theorem settles_failed_iff {cause : Failure} (noTimeout : ∀ seconds, cause ≠ .timeout seconds) :
    poll.Settles setting started current (.error (.failed cause) after) ↔
      call setting poll.words current = .error (.failed cause) after := by
  constructor
  · intro settles
    cases settles with
    | late => cases noTimeout _ rfl
    | failed calls => exact calls
  · exact .failed

end

/-- A run ends with the call that settles it, or it has used up its calls. -/
theorem run_eq_iff (calls : Nat) (begun : Session σ)
    (result : EStateM.Result Halt (Session σ) Bool) :
    poll.run setting started calls begun = result ↔
      (∃ earlier < calls, ∃ current, poll.Tries setting started earlier begun current ∧
        poll.Settles setting started current result) ∨
      ∃ last, poll.Tries setting started calls begun last ∧ result = .error .exhausted last := by
  constructor
  · rintro rfl
    induction calls generalizing begun with
    | zero => exact .inr ⟨begun, .none begun, rfl⟩
    | succ calls inductionHypothesis =>
        rcases settles_or_goesOn setting poll started begun with ⟨result, settles⟩ | ⟨next, goesOn⟩
        · rw [run_of_settles settles]
          exact .inl ⟨0, Nat.succ_pos _, begun, .none begun, settles⟩
        · rw [run_of_goesOn goesOn]
          rcases inductionHypothesis next with ⟨earlier, fewer, current, tries, settles⟩ |
            ⟨last, tries, isUsedUp⟩
          · exact .inl ⟨earlier + 1, Nat.succ_lt_succ fewer, current, .more goesOn tries, settles⟩
          · exact .inr ⟨last, .more goesOn tries, isUsedUp⟩
  · rintro (⟨earlier, fewer, current, tries, settles⟩ | ⟨last, tries, rfl⟩)
    · induction tries generalizing calls with
      | none =>
          obtain ⟨more, rfl⟩ := Nat.exists_eq_succ_of_ne_zero (Nat.ne_of_gt fewer)
          exact run_of_settles settles more
      | more goesOn _ inductionHypothesis =>
          obtain ⟨more, rfl⟩ := Nat.exists_eq_succ_of_ne_zero (Nat.ne_of_gt (Nat.zero_lt_of_lt fewer))
          rw [Nat.succ_eq_add_one, run_of_goesOn goesOn]
          exact inductionHypothesis more (Nat.lt_of_succ_lt_succ fewer) settles
    · induction tries with
      | none => rfl
      | more goesOn _ inductionHypothesis => rw [run_of_goesOn goesOn, inductionHypothesis]

/-- When a poll that may make a number of calls ends with which result. -/
structure Outcomes (setting : Setting σ) (poll : Poll) (started calls : Nat) (begun : Session σ)
    (result : EStateM.Result Halt (Session σ) Bool) : Prop where
  /-- It succeeds with the first response that has the value, after others that lack it in time. -/
  succeeds : ∀ after, result = .ok true after ↔ ∃ earlier < calls, ∃ current,
    poll.Tries setting started earlier begun current ∧
    call setting poll.words current = .ok true after ∧
    ∃ root ∈ after.response.tree, poll.value ∈ root.values poll.field
  /-- It does not succeed after the first response that is empty or has no tree. -/
  stops : ∀ after, result = .ok false after ↔ ∃ earlier < calls, ∃ current,
    poll.Tries setting started earlier begun current ∧
    (call setting poll.words current = .ok false after ∨
      call setting poll.words current = .ok true after ∧ after.response.tree = none)
  /-- It times out only after a response without the value, and if the time is over then. -/
  timesOut : ∀ seconds last, result = .error (.failed (.timeout seconds)) last ↔
    seconds = poll.timeout ∧ ∃ earlier < calls, ∃ current after root,
      poll.Tries setting started earlier begun current ∧
      call setting poll.words current = .ok true after ∧ after.response.tree = some root ∧
      poll.value ∉ root.values poll.field ∧
      poll.timeout * 1000000000 < poll.elapsed setting started after ∧
      last = poll.rested root after
  /-- It fails for another cause as the first call does that fails. -/
  fails : ∀ cause after, (∀ seconds, cause ≠ .timeout seconds) →
    (result = .error (.failed cause) after ↔ ∃ earlier < calls, ∃ current,
      poll.Tries setting started earlier begun current ∧
      call setting poll.words current = .error (.failed cause) after)
  /-- Otherwise it has made all calls. -/
  isUsedUp : ∀ last, result = .error .exhausted last ↔
    poll.Tries setting started calls begun last

/-- Unless all calls are used up, a run ends with the call that settles it. -/
theorem run_eq_iff_settles (calls : Nat) (begun : Session σ)
    {result : EStateM.Result Halt (Session σ) Bool}
    (callsLeft : ∀ last, result ≠ .error .exhausted last) :
    poll.run setting started calls begun = result ↔
      ∃ earlier < calls, ∃ current, poll.Tries setting started earlier begun current ∧
        poll.Settles setting started current result := by
  rw [run_eq_iff]
  refine or_iff_left ?_
  rintro ⟨last, _, isUsedUp⟩
  exact callsLeft last isUsedUp

theorem run_outcomes (setting : Setting σ) (poll : Poll) (started calls : Nat)
    (begun : Session σ) :
    poll.Outcomes setting started calls begun (poll.run setting started calls begun) where
  succeeds after := by
    rw [run_eq_iff_settles calls begun fun _ isUsedUp => by cases isUsedUp]
    simp only [settles_found_iff]
  stops after := by
    rw [run_eq_iff_settles calls begun fun _ isUsedUp => by cases isUsedUp]
    simp only [settles_stopped_iff]
  timesOut seconds last := by
    rw [run_eq_iff_settles calls begun fun _ isUsedUp => by cases isUsedUp]
    simp only [settles_late_iff]
    constructor
    · rintro ⟨earlier, fewer, current, tries, isTimeout, after, root, late⟩
      exact ⟨isTimeout, earlier, fewer, current, after, root, tries, late⟩
    · rintro ⟨isTimeout, earlier, fewer, current, after, root, tries, late⟩
      exact ⟨earlier, fewer, current, tries, isTimeout, after, root, late⟩
  fails cause after noTimeout := by
    rw [run_eq_iff_settles calls begun fun _ isUsedUp => by cases isUsedUp]
    simp only [settles_failed_iff noTimeout]
  isUsedUp last := by
    rw [run_eq_iff]
    constructor
    · rintro (⟨earlier, fewer, current, tries, settles⟩ | ⟨_, tries, isUsedUp⟩)
      · cases settles with
        | failed calls =>
            obtain ⟨cause, isCause, _⟩ := call_halts calls
            cases isCause
      · cases isUsedUp
        exact tries
    · exact fun tries => .inr ⟨last, tries, rfl⟩

end Poll

/-- A poll with a condition on one field and a method to call ends as its calls and the clock decide,
and each of the calls sends its request once if that can be built. -/
theorem poll_outcomes (setting : Setting σ) (calls : Nat) {condition : Text} (words : List Text)
    {before : Session σ} {field value : Text}
    (isCondition : splitOn (before.store.expand (before.date setting.clock) condition) '=' =
      [field, value]) :
    ∃ interval timeout method, timing setting words before = .ok (interval, timeout, method) before ∧
      (method = [] → poll setting calls condition words before =
        .error (.failed (.script .nothingToPoll)) before) ∧
      (method ≠ [] → Poll.Outcomes setting ⟨field, value, interval, timeout, method⟩
        (before.time setting.clock) calls { before with readings := before.readings + 1 }
        (poll setting calls condition words before)) ∧
      ∀ current, Calls setting method current (call setting method current) := by
  obtain ⟨⟨interval, timeout, method⟩, times⟩ : ∃ given, timing setting words before =
      .ok given before := ⟨_, rfl⟩
  have expands : expand setting condition before =
      .ok (before.store.expand (before.date setting.clock) condition) before := rfl
  have looks : lookAtClock setting.clock before =
      .ok (before.time setting.clock) { before with readings := before.readings + 1 } := rfl
  have begins : poll setting calls condition words before = (do
      onlyIf (method = []) (fail (.script .nothingToPoll))
      let started ← lookAtClock setting.clock
      Poll.run setting ⟨field, value, interval, timeout, method⟩ started calls) before := by
    rw [poll, bind_of_eq_ok expands, isCondition]
    exact bind_of_eq_ok times _
  refine ⟨interval, timeout, method, times, fun noMethod => ?_, fun named => ?_,
    call_calls setting method⟩
  · rw [begins, onlyIf, if_pos noMethod]
    rfl
  · rw [begins, onlyIf, if_neg named, pure_bind, bind_of_eq_ok looks]
    exact Poll.run_outcomes setting _ _ calls _

/-- The value is in the second answer. -/
def changing : Session (List (Except Text Text)) :=
  { answered with connection := ⟨[.ok "<a><b>1</b></a>", .ok "<a><b>2</b></a>"], ⟨[], []⟩, [], []⟩ }

theorem poll_outcomes_second :
    splitOn (changing.store.expand (changing.date described.clock) "b=2") '=' = ["b", "2"] ∧
      ∃ interval timeout after, poll described 3 "b=2" ["GetKey"] changing = .ok true after ∧
        ∃ earlier < 3, ∃ current,
          Poll.Tries described ⟨"b", "2", interval, timeout, ["GetKey"]⟩
            (changing.time described.clock) earlier
            { changing with readings := changing.readings + 1 } current ∧
          call described ["GetKey"] current = .ok true after ∧
          ∃ root ∈ after.response.tree, ("2" : Text) ∈ root.values "b" := by
  have isCondition : splitOn (changing.store.expand (changing.date described.clock) "b=2") '=' =
      ["b", "2"] := by decide +kernel
  have succeeds : outcome (poll described 3 "b=2" ["GetKey"] changing) = .ok true := by
    decide +kernel
  have ran := eq_ok_of_outcome succeeds
  obtain ⟨interval, timeout, method, times, _, outcomes, _⟩ :=
    poll_outcomes described 3 ["GetKey"] isCondition
  obtain rfl : method = ["GetKey"] := by
    cases times
    rfl
  exact ⟨isCondition, interval, timeout, _, ran,
    ((outcomes (List.cons_ne_nil _ _)).succeeds _).mp ran⟩

/-- The value is where the text of a response shows nothing. -/
def concealed : Session (List (Except Text Text)) :=
  { answered with connection :=
      ⟨[.ok "<Envelope><Header><Status>Done</Status></Header><Body/></Envelope>"], ⟨[], []⟩, [], []⟩ }

/-- The tree of the only response has the value, but the response counts as empty. -/
theorem poll_concealed : ∃ after root,
    poll described 3 "Status=Done" ["GetKey"] concealed = .ok false after ∧
      after.response.tree = some root ∧ ("Done" : Text) ∈ root.values "Status" := by
  have stops : outcome (poll described 3 "Status=Done" ["GetKey"] concealed) = .ok false := by
    decide +kernel
  have has : ∃ root ∈ (finalState (poll described 3 "Status=Done" ["GetKey"] concealed)).response.tree,
      ("Done" : Text) ∈ root.values "Status" := by decide +kernel
  obtain ⟨root, isTree, isValue⟩ := has
  exact ⟨_, root, eq_ok_of_outcome stops, isTree, isValue⟩

end Session

end ManagementShell

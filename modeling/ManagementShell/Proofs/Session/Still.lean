import ManagementShell.Proofs.Building
import ManagementShell.Session.Run

/-
This file shows which actions leave the running scripts alone, and which of them do not look at the
peer either.
-/

namespace ManagementShell

/-- The depth of the frame that the event is about. -/
def Event.depth? : Event → Option Nat
  | .line depth _ | .moved depth _ => some depth
  | _ => none

/-- The command only looks at the session, prints, waits or changes variables and the log. -/
def Command.isStill : Command → Bool
  | .nothing | .clear | .count _ | .find _ _ _ | .findAll _ _ | .log _ _ | .print _ | .report _ _
  | .listVariables | .assign _ _ | .evaluate _ _ | .sleep _ | .unset _ => true
  | _ => false

/-- The event is a record, or something is shown or logged. -/
def Event.isOutput : Event → Bool
  | .record _ | .screen _ | .console _ | .logged _ => true
  | _ => false

theorem Event.depth?_of_isOutput {event : Event} (output : event.isOutput = true) :
    event.depth? = none := by
  cases event <;> first | rfl | cases output

variable {σ : Type}

/-- A connection has taken part in events that are all allowed. -/
def Connection.Adds (allowed : Event → Prop) (before after : Connection σ) : Prop :=
  ∃ added, after.events = before.events ++ added ∧ ∀ event ∈ added, allowed event

/-- None of the events is about a frame. -/
def Connection.Continues (before after : Connection σ) : Prop :=
  before.Adds (fun event => event.depth? = none) after

/-- All the events are output. -/
def Connection.Outputs (before after : Connection σ) : Prop :=
  before.Adds (fun event => event.isOutput = true) after

namespace Connection

theorem adds_chains (allowed : Event → Prop) : Chains (Adds (σ := σ) allowed) where
  stay connection := ⟨[], by simp⟩
  join := by
    rintro first second third ⟨early, earlyEvents, earlyAllowed⟩ ⟨late, lateEvents, lateAllowed⟩
    refine ⟨early ++ late, by rw [lateEvents, earlyEvents, List.append_assoc], ?_⟩
    intro event member
    rcases List.mem_append.mp member with isEarly | isLate
    · exact earlyAllowed event isEarly
    · exact lateAllowed event isLate

theorem continues_chains : Chains (Continues (σ := σ)) := adds_chains _

theorem outputs_chains : Chains (Outputs (σ := σ)) := adds_chains _

theorem Outputs.continues {before after : Connection σ} (outputs : before.Outputs after) :
    before.Continues after := by
  obtain ⟨added, grows, output⟩ := outputs
  exact ⟨added, grows, fun event member => Event.depth?_of_isOutput (output event member)⟩

theorem report_continues (event : Event) (none : event.depth? = none) :
    Leads (Continues (σ := σ)) (report event) :=
  leads_modify fun _ => ⟨[event], rfl, by simpa using none⟩

theorem send_continues (peer : Peer σ) (invocation : Invocation) :
    Leads Continues (send peer invocation) := by
  intro connection
  have continued : connection.Continues
      { connection with
        peer := (peer.answer invocation connection.files connection.peer).2.2
        files := (peer.answer invocation connection.files connection.peer).2.1
        events := connection.events ++ [Event.sent invocation] } :=
    ⟨[.sent invocation], rfl, by simp [Event.depth?]⟩
  simp only [send, ends_bind, ends_get, ends_set]
  split
  · exact continued
  · exact continued

theorem build_continues (peer : Peer σ) (basis : Request.Basis) (call : Call) :
    Leads Continues (build peer basis call) :=
  build_leads continues_chains peer basis (fun _ => report_continues _ rfl)
    (send_continues peer) (fun _ _ => leads_modify fun _ => ⟨[], by simp⟩) call

end Connection

namespace Session

/-- The running scripts are as they were, and so is the mark of the end of the session. -/
structure Remains (before after : Session σ) : Prop where
  frames : after.frames = before.frames
  quits : after.quits = before.quits
  events : before.connection.Continues after.connection

/-- The last response and the context are as they were, too, and the peer was not asked. -/
structure Still (before after : Session σ) : Prop where
  frames : after.frames = before.frames
  quits : after.quits = before.quits
  response : after.response = before.response
  context : after.context = before.context
  events : before.connection.Outputs after.connection

theorem remains_chains : Chains (Remains (σ := σ)) where
  stay _ := ⟨rfl, rfl, Connection.continues_chains.stay _⟩
  join first second := ⟨second.frames.trans first.frames, second.quits.trans first.quits,
    Connection.continues_chains.join first.events second.events⟩

theorem still_chains : Chains (Still (σ := σ)) where
  stay _ := ⟨rfl, rfl, rfl, rfl, Connection.outputs_chains.stay _⟩
  join first second := ⟨second.frames.trans first.frames, second.quits.trans first.quits,
    second.response.trans first.response, second.context.trans first.context,
    Connection.outputs_chains.join first.events second.events⟩

theorem Still.remains {before after : Session σ} (still : Still before after) :
    Remains before after := ⟨still.frames, still.quits, still.events.continues⟩

theorem remains_of_still {α : Type} {action : Action σ α} (still : Leads Still action) :
    Leads Remains action := fun session =>
  (still session).weaken (fun _ _ step => step.remains) (fun _ _ step => step.remains)

/-- A change of the variables, the files, the response, the log or the clock leaves the scripts. -/
theorem remains_of_events {before after : Session σ} (frames : after.frames = before.frames)
    (quits : after.quits = before.quits)
    (events : after.connection.events = before.connection.events) : Remains before after :=
  ⟨frames, quits, [], by simpa using events, by simp⟩

/-- A change of the variables, the files, the log or the clock is still. -/
theorem still_of_events {before after : Session σ} (frames : after.frames = before.frames)
    (quits : after.quits = before.quits)
    (events : after.connection.events = before.connection.events)
    (response : after.response = before.response) (context : after.context = before.context) :
    Still before after :=
  ⟨frames, quits, response, context, [], by simpa using events, by simp⟩

theorem addEvent_remains (session : Session σ) {event : Event} (none : event.depth? = none) :
    Remains session (session.addEvent event) := ⟨rfl, rfl, [event], rfl, by simpa using none⟩

theorem addEvent_still (session : Session σ) {event : Event} (output : event.isOutput = true) :
    Still session (session.addEvent event) :=
  ⟨rfl, rfl, rfl, rfl, [event], rfl, by simpa using output⟩

@[simp] theorem ends_onConnection {α : Type} (action : EStateM Failure (Connection σ) α)
    {before : Session σ} {done : α → Session σ → Prop} {halted : Halt → Session σ → Prop} :
    Ends (onConnection action) before done halted ↔
      Ends action before.connection
        (fun value after => done value { before with connection := after })
        (fun cause after => halted (.failed cause) { before with connection := after }) := by
  simp only [Ends, onConnection]
  cases action before.connection <;> rfl

theorem onConnection_remains {α : Type} {action : EStateM Failure (Connection σ) α}
    (continues : Leads Connection.Continues action) : Leads Remains (onConnection action) := by
  intro session
  rw [ends_onConnection]
  exact (continues session.connection).weaken (fun _ _ continued => ⟨rfl, rfl, continued⟩)
    (fun _ _ continued => ⟨rfl, rfl, continued⟩)

theorem fail_still {α : Type} (cause : Failure) : Leads Still (fail cause : Action σ α) :=
  leads_throw still_chains _

theorem onlyIf_leads {relation : Session σ → Session σ → Prop} (chains : Chains relation)
    {condition : Prop} [Decidable condition] {action : Action σ Unit}
    (leads : Leads relation action) : Leads relation (onlyIf condition action) := by
  unfold onlyIf
  split
  · exact leads
  · exact leads_pure chains _

theorem check_still {α : Type} (outcome : Except Failure α) :
    Leads Still (check outcome : Action σ α) := by
  cases outcome with
  | ok value => exact leads_pure still_chains _
  | error cause => exact fail_still _

theorem emit_still {event : Event} (output : event.isOutput = true) :
    Leads (Still (σ := σ)) (emit event) := leads_modify fun session => addEvent_still session output

theorem recordAll_ends (entries : List Record) (before : Session σ) :
    Ends (recordAll entries) before (fun _ after => Still before after) (fun _ _ => False) := by
  induction entries generalizing before with
  | nil => exact still_chains.stay before
  | cons entry rest inductionHypothesis =>
      exact (inductionHypothesis _).weaken
        (fun _ _ still => still_chains.join (addEvent_still before rfl) still)
        (fun _ _ never => never)

theorem recordAll_still (entries : List Record) : Leads (Still (σ := σ)) (recordAll entries) :=
  fun before => (recordAll_ends entries before).weaken (fun _ _ still => still)
    (fun _ _ never => never.elim)

theorem addToLog_still (text : Text) : Leads (Still (σ := σ)) (addToLog text) := by
  apply leads_modify
  intro session
  split
  · exact still_chains.join (addEvent_still session rfl) (still_of_events rfl rfl rfl rfl rfl)
  · exact still_chains.stay _

theorem write_still (text : Text) : Leads (Still (σ := σ)) (write text) :=
  Leads.bind still_chains (emit_still rfl) fun _ => addToLog_still text

theorem lookAtClock_still (clock : Clock) : Leads (Still (σ := σ)) (lookAtClock clock) :=
  fun _ => still_of_events rfl rfl rfl rfl rfl

theorem sleep_still (seconds : Nat) : Leads (Still (σ := σ)) (sleep seconds) :=
  leads_modify fun _ => still_of_events rfl rfl rfl rfl rfl

theorem expand_still (setting : Setting σ) (text : Text) : Leads Still (expand setting text) :=
  still_chains.stay

theorem expandSecret_still (setting : Setting σ) (text : Text) :
    Leads Still (expandSecret setting text) := still_chains.stay

theorem assign_still (name value : Text) : Leads (Still (σ := σ)) (assign name value) := by
  intro session
  simp only [assign, ends_bind, ends_get]
  cases session.store.set name value with
  | error cause => exact still_chains.stay session
  | ok changed =>
      exact (recordAll_still changed.2).after still_chains (still_of_events rfl rfl rfl rfl rfl)

theorem bind_still (name : Text) (value : Value) : Leads (Still (σ := σ)) (bind name value) := by
  intro session
  simp only [bind, ends_bind, ends_get]
  cases session.store.bind name value with
  | error cause => exact still_chains.stay session
  | ok store => exact still_of_events rfl rfl rfl rfl rfl

theorem clear_still (name : Text) : Leads (Still (σ := σ)) (clear name) :=
  leads_modify fun _ => still_of_events rfl rfl rfl rfl rfl

theorem reportFailure_still (message : Text) : Leads (Still (σ := σ)) (reportFailure message) :=
  Leads.bind still_chains (leads_get still_chains) fun _ => emit_still rfl

theorem clearTarget_still (name : Option Text) : Leads (Still (σ := σ)) (clearTarget name) := by
  cases name with
  | none => exact leads_pure still_chains _
  | some name => exact clear_still name

theorem findQuery_still (look : Text) (name : Option Text) (position : Option Nat) :
    Leads (Still (σ := σ)) (findQuery look name position) := by
  apply Leads.bind still_chains (clearTarget_still name)
  intro _
  split
  · exact fail_still _
  · apply Leads.bind still_chains (leads_get still_chains)
    intro session
    split
    · exact Leads.bind still_chains (emit_still rfl) fun _ => leads_pure still_chains _
    · split
      · exact Leads.bind still_chains (bind_still _ _) fun _ => leads_pure still_chains _
      · exact leads_pure still_chains _

theorem find_still (setting : Setting σ) (look : Text) (name position : Option Text) :
    Leads Still (find setting look name position) := by
  apply Leads.bind still_chains (expand_still setting look)
  intro expanded
  split
  · exact findQuery_still _ _ _
  · apply Leads.bind still_chains (expand_still setting _)
    intro position
    split
    · exact findQuery_still _ _ _
    · exact leads_pure still_chains _

theorem findAll_still (setting : Setting σ) (field name : Text) :
    Leads Still (findAll setting field name) := by
  apply Leads.bind still_chains (expand_still setting field)
  intro expanded
  apply Leads.bind still_chains (clear_still name)
  intro _
  apply Leads.bind still_chains (leads_get still_chains)
  intro session
  split
  · exact Leads.bind still_chains (emit_still rfl) fun _ => leads_pure still_chains _
  · split
    · exact leads_pure still_chains _
    · exact Leads.bind still_chains (bind_still _ _) fun _ => leads_pure still_chains _

theorem count_still (name : Text) : Leads (Still (σ := σ)) (count name) :=
  Leads.bind still_chains (leads_get still_chains) fun _ =>
    Leads.bind still_chains (bind_still _ _) fun _ => leads_pure still_chains _

theorem reportFilter_still (setting : Setting σ) (filter : Option Text) :
    Leads Still (reportFilter setting filter) := by
  cases filter with
  | none => exact leads_pure still_chains _
  | some filter =>
      apply Leads.bind still_chains (expand_still setting filter)
      intro expanded
      split
      · exact leads_pure still_chains _
      · exact fail_still _

theorem report_still (setting : Setting σ) (fields : Text) (filter : Option Text) :
    Leads Still (report setting fields filter) := by
  apply Leads.bind still_chains (expand_still setting fields)
  intro expanded
  apply Leads.bind still_chains (reportFilter_still setting filter)
  intro pair
  apply Leads.bind still_chains (leads_get still_chains)
  intro session
  apply Leads.bind still_chains (recordAll_still _)
  intro _
  split
  · exact Leads.bind still_chains (write_still _) fun _ => leads_pure still_chains _
  · exact leads_pure still_chains _

theorem holds_still (setting : Setting σ) (condition : Text) :
    Leads Still (holds setting condition) := by
  unfold holds
  split
  · exact fail_still _
  · exact Leads.bind still_chains (expand_still setting _) fun _ =>
      Leads.bind still_chains (expand_still setting _) fun _ => leads_pure still_chains _

theorem expandAll_still (setting : Setting σ) (words : List Text) :
    Leads Still (expandAll setting words) := by
  induction words with
  | nil => exact leads_pure still_chains _
  | cons word rest inductionHypothesis =>
      exact Leads.bind still_chains (expandSecret_still setting word) fun _ =>
        Leads.bind still_chains inductionHypothesis fun _ => leads_pure still_chains _

theorem request_remains (setting : Setting σ) (words : List Text) :
    Leads Remains (request setting words) := by
  apply Leads.bind remains_chains (remains_of_still (expandAll_still setting words))
  intro expanded
  apply Leads.bind remains_chains (leads_modify fun session => addEvent_remains session rfl)
  intro _
  apply Leads.bind remains_chains (leads_get remains_chains)
  intro session
  apply Leads.bind remains_chains (remains_of_still (check_still _))
  intro read
  apply Leads.bind remains_chains (remains_of_still (recordAll_still _))
  intro _
  apply Leads.bind remains_chains
  · exact leads_modify fun _ => remains_of_events rfl rfl rfl
  · intro _
    apply Leads.bind remains_chains (leads_get remains_chains)
    intro emptied
    exact onConnection_remains (Connection.build_continues _ _ _)

theorem showTime_still (setting : Setting σ) (method : Text) (started : Nat) :
    Leads Still (showTime setting method started) :=
  Leads.bind still_chains (lookAtClock_still _) fun _ => write_still _

/-- The invocation has been sent, with nothing but output before and after it. -/
structure Exchanges (invocation : Invocation) (before after : Session σ) : Prop where
  frames : after.frames = before.frames
  quits : after.quits = before.quits
  response : after.response = before.response
  context : after.context = before.context
  events : ∃ early late, after.connection.events =
      before.connection.events ++ (early ++ .sent invocation :: late) ∧
    (∀ event ∈ early, event.isOutput = true) ∧ ∀ event ∈ late, event.isOutput = true

section

variable {invocation : Invocation} {first second third : Session σ}

theorem Exchanges.before (exchanges : Exchanges invocation second third)
    (still : Still first second) : Exchanges invocation first third := by
  obtain ⟨added, grows, output⟩ := still.events
  obtain ⟨early, late, events, before, after⟩ := exchanges.events
  refine ⟨exchanges.frames.trans still.frames, exchanges.quits.trans still.quits,
    exchanges.response.trans still.response, exchanges.context.trans still.context,
    added ++ early, late, by simp [events, grows], ?_, after⟩
  intro event member
  exact (List.mem_append.mp member).elim (output event) (before event)

theorem Exchanges.after (exchanges : Exchanges invocation first second)
    (still : Still second third) : Exchanges invocation first third := by
  obtain ⟨added, grows, output⟩ := still.events
  obtain ⟨early, late, events, before, after⟩ := exchanges.events
  refine ⟨still.frames.trans exchanges.frames, still.quits.trans exchanges.quits,
    still.response.trans exchanges.response, still.context.trans exchanges.context,
    early, late ++ added, by simp [events, grows], before, ?_⟩
  intro event member
  exact (List.mem_append.mp member).elim (after event) (output event)

theorem Exchanges.remains (exchanges : Exchanges invocation first second) :
    Remains first second := by
  obtain ⟨early, late, events, before, after⟩ := exchanges.events
  refine ⟨exchanges.frames, exchanges.quits, _, events, fun event member => ?_⟩
  rcases List.mem_append.mp member with isEarly | isLate
  · exact Event.depth?_of_isOutput (before event isEarly)
  · rcases List.mem_cons.mp isLate with rfl | isLate
    · rfl
    · exact Event.depth?_of_isOutput (after event isLate)

variable {α β : Type} {action : Action σ α} {next : α → Action σ β}

/-- An action that cannot halt may stand before the one that sends. -/
theorem exchanges_of_second
    (still : ∀ before, Ends action before (fun _ after => Still before after) fun _ _ => False)
    (exchanges : ∀ value, Leads (Exchanges invocation) (next value)) :
    Leads (Exchanges invocation) (action >>= next) := by
  intro before
  rw [ends_bind]
  exact (still before).weaken
    (fun value after step => (exchanges value after).weaken (fun _ _ sent => sent.before step)
      (fun _ _ sent => sent.before step))
    (fun _ _ never => never.elim)

theorem exchanges_of_first (exchanges : Leads (Exchanges invocation) action)
    (still : ∀ value, Leads Still (next value)) :
    Leads (Exchanges invocation) (action >>= next) := by
  intro before
  rw [ends_bind]
  exact (exchanges before).weaken
    (fun value after sent =>
      (still value after).weaken (fun _ _ => sent.after) (fun _ _ => sent.after))
    (fun _ _ sent => sent)

end

theorem send_exchanges (peer : Peer σ) (invocation : Invocation) :
    Leads (Exchanges invocation) (onConnection (Connection.send peer invocation)) := by
  intro session
  have sent : Exchanges invocation session { session with connection := { session.connection with
      peer := (peer.answer invocation session.connection.files session.connection.peer).2.2
      files := (peer.answer invocation session.connection.files session.connection.peer).2.1
      events := session.connection.events ++ [Event.sent invocation] } } :=
    ⟨rfl, rfl, rfl, rfl, [], [], rfl, List.forall_mem_nil _, List.forall_mem_nil _⟩
  simp only [ends_onConnection, Connection.send, ends_bind, ends_get, ends_set]
  split
  · exact sent
  · exact sent

theorem announce_ends (request : Request) (before : Session σ) :
    Ends (announce request) before (fun _ after => Still before after) fun _ _ => False := by
  have shown := addEvent_still before
    (rfl : (Event.screen (request.invocation.shown ++ "\n\n")).isOutput = true)
  rw [announce, ends_bind]
  change Ends _ (before.addEvent (.screen (request.invocation.shown ++ "\n\n"))) _ _
  split
  · exact still_chains.join shown (addEvent_still _ rfl)
  · exact shown

/-- Every exchange gets to the point where the request is sent. -/
theorem exchange_exchanges (setting : Setting σ) (request : Request) :
    Leads (Exchanges request.invocation) (exchange setting request) := by
  apply exchanges_of_second
  · exact still_chains.stay
  intro session
  apply exchanges_of_second
  · intro before
    unfold onlyIf
    split
    · exact announce_ends request before
    · exact still_chains.stay before
  intro _
  apply exchanges_of_second
  · exact fun _ => still_of_events rfl rfl rfl rfl rfl
  intro started
  apply exchanges_of_first (send_exchanges _ _)
  intro output
  apply Leads.bind still_chains (onlyIf_leads still_chains (emit_still rfl))
  intro _
  apply Leads.bind still_chains (addToLog_still _)
  intro _
  exact Leads.bind still_chains (onlyIf_leads still_chains (showTime_still _ _ _))
    fun _ => leads_pure still_chains _

theorem exchange_remains (setting : Setting σ) (request : Request) :
    Leads Remains (exchange setting request) := fun before =>
  (exchange_exchanges setting request before).weaken (fun _ _ exchanged => exchanged.remains)
    (fun _ _ exchanged => exchanged.remains)

theorem call_remains (setting : Setting σ) (words : List Text) :
    Leads Remains (call setting words) :=
  Leads.bind remains_chains (request_remains setting words) fun _ =>
    Leads.bind remains_chains (exchange_remains setting _) fun _ =>
      Leads.bind remains_chains (leads_modify fun _ => remains_of_events rfl rfl rfl)
        fun _ => leads_pure remains_chains _

/-- What a poll does between two calls. -/
def Poll.wait (setting : Setting σ) (poll : Poll) (started : Nat) (root : Element) :
    Action σ Unit := do
  let session ← get
  onlyIf (callLevel < session.store.verbosityLevel) (display (poll.progress root))
  sleep poll.interval
  let ended ← lookAtClock setting.clock
  onlyIf (poll.timeout * 1000000000 < ended - started) (fail (.timeout poll.timeout))

theorem wait_still (setting : Setting σ) (poll : Poll) (started : Nat) (root : Element) :
    Leads Still (poll.wait setting started root) := by
  apply Leads.bind still_chains (leads_get still_chains)
  intro session
  apply Leads.bind still_chains (onlyIf_leads still_chains (emit_still rfl))
  intro _
  apply Leads.bind still_chains (sleep_still _)
  intro _
  exact Leads.bind still_chains (lookAtClock_still _) fun _ =>
    onlyIf_leads still_chains (fail_still _)

/-- After a call without a match, a poll waits and goes on. -/
theorem pollRun_succ (setting : Setting σ) (poll : Poll) (started calls : Nat) :
    poll.run setting started (calls + 1) = (do
      if !(← call setting poll.words) then return false
      match (← get).response.tree with
      | none => return false
      | some root =>
          if (poll.query.find? root.rootPlace).isSome then return true
          poll.wait setting started root
          poll.run setting started calls) := by
  rw [Poll.run]
  funext before
  cases called : call setting poll.words before with
  | error halt after => simp only [bind_of_eq_error called]
  | ok answered after =>
      simp only [bind_of_eq_ok called]
      cases answered with
      | false => rw [if_pos Bool.not_false, if_pos Bool.not_false]
      | true =>
          rw [if_neg (by decide), if_neg (by decide), get_bind, get_bind]
          cases after.response.tree with
          | none => rfl
          | some root =>
              dsimp only
              split
              · rfl
              · rw [Poll.wait, bind_assoc, get_bind]
                simp only [bind_assoc]

/-- A poll makes calls and waits; the induction is on the number of calls that it may make. -/
theorem pollRun_remains (setting : Setting σ) (poll : Poll) (started calls : Nat) :
    Leads Remains (Poll.run setting poll started calls) := by
  induction calls with
  | zero => exact leads_throw remains_chains _
  | succ calls inductionHypothesis =>
      rw [pollRun_succ]
      apply Leads.bind remains_chains (call_remains setting poll.words)
      intro answered
      split
      · exact leads_pure remains_chains _
      · apply Leads.bind remains_chains (leads_get remains_chains)
        intro session
        split
        · exact leads_pure remains_chains _
        · split
          · exact leads_pure remains_chains _
          · exact Leads.bind remains_chains (remains_of_still (wait_still setting poll started _))
              fun _ => inductionHypothesis

theorem timing_still (setting : Setting σ) (words : List Text) :
    Leads Still (timing setting words) := still_chains.stay

theorem poll_remains (setting : Setting σ) (calls : Nat) (condition : Text) (words : List Text) :
    Leads Remains (poll setting calls condition words) := by
  apply Leads.bind remains_chains (remains_of_still (expand_still setting condition))
  intro expanded
  split
  · apply Leads.bind remains_chains (remains_of_still (timing_still setting words))
    intro times
    apply Leads.bind remains_chains (remains_of_still (onlyIf_leads still_chains (fail_still _)))
    intro _
    exact Leads.bind remains_chains (remains_of_still (lookAtClock_still _))
      fun _ => pollRun_remains setting _ _ _
  · exact remains_of_still (fail_still _)

theorem evaluate_still (setting : Setting σ) (name expression : Text) :
    Leads Still (evaluate setting name expression) := by
  apply Leads.bind still_chains (expand_still setting expression)
  intro expanded
  split
  · exact Leads.bind still_chains (assign_still _ _) fun _ => leads_pure still_chains _
  · exact fail_still _

theorem sleepFor_still (setting : Setting σ) (text : Text) :
    Leads Still (sleepFor setting text) := by
  apply Leads.bind still_chains (expand_still setting text)
  intro expanded
  split
  · exact Leads.bind still_chains (sleep_still _) fun _ => leads_pure still_chains _
  · exact fail_still _

theorem unset_still (name : Text) : Leads (Still (σ := σ)) (unset name) := by
  intro session
  simp only [unset, ends_bind, ends_get]
  cases session.store.unset name with
  | error cause => exact still_chains.stay session
  | ok changed => exact still_of_events rfl rfl rfl rfl rfl

theorem openLog_still (path : Text) (mode : Option Text) :
    Leads (Still (σ := σ)) (openLog path mode) := by
  apply Leads.bind still_chains (check_still _)
  intro keeps session
  simp only [ends_bind, ends_get]
  split
  · exact still_chains.stay session
  · exact still_of_events rfl rfl rfl rfl rfl

theorem expandGiven_still (setting : Setting σ) (text : Option Text) :
    Leads Still (expandGiven setting text) := by
  cases text with
  | none => exact leads_pure still_chains _
  | some text => exact still_chains.stay

theorem changeLog_still (setting : Setting σ) (path mode : Option Text) :
    Leads Still (changeLog setting path mode) := by
  apply Leads.bind still_chains
  · exact leads_modify fun _ => still_of_events rfl rfl rfl rfl rfl
  · intro _
    cases path with
    | none => exact leads_pure still_chains _
    | some path =>
        apply Leads.bind still_chains (expand_still setting path)
        intro expanded
        apply Leads.bind still_chains (expandGiven_still setting mode)
        intro expandedMode
        exact Leads.bind still_chains (openLog_still _ _) fun _ => leads_pure still_chains _

theorem echo_still (setting : Setting σ) (line : Text) : Leads Still (echo setting line) :=
  Leads.bind still_chains (leads_get still_chains) fun _ => emit_still rfl

/-- Such a command does not move in a script and does not look at the peer. -/
theorem execute_still (setting : Setting σ) (calls : Nat) (runFrame : Frame → Action σ Bool)
    {command : Command} (still : command.isStill = true) :
    Leads Still (execute setting calls runFrame command) := by
  cases command with
  | nothing => exact leads_pure still_chains _
  | clear => exact Leads.bind still_chains (emit_still rfl) fun _ => leads_pure still_chains _
  | count name => exact count_still name
  | find look name position =>
      exact Leads.bind still_chains (find_still setting look name position) fun _ =>
        leads_pure still_chains _
  | findAll field name => exact findAll_still setting field name
  | log path mode => exact changeLog_still setting path mode
  | print text =>
      exact Leads.bind still_chains (expand_still setting text) fun _ =>
        Leads.bind still_chains (write_still _) fun _ => leads_pure still_chains _
  | report fields filter => exact report_still setting fields filter
  | listVariables =>
      exact Leads.bind still_chains (leads_get still_chains) fun _ =>
        Leads.bind still_chains (write_still _) fun _ => leads_pure still_chains _
  | assign name value =>
      exact Leads.bind still_chains (expand_still setting value) fun _ =>
        Leads.bind still_chains (assign_still name _) fun _ => leads_pure still_chains _
  | evaluate name expression => exact evaluate_still setting name expression
  | sleep seconds => exact sleepFor_still setting seconds
  | unset name => exact unset_still name
  | batch | context | gosub | goto | conditional | quit | leave | poll | invoke => cases still

end Session

end ManagementShell

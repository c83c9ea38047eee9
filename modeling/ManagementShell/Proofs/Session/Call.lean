import ManagementShell.Proofs.Extraction
import ManagementShell.Proofs.Session.Discreet

/-
This file shows that calls and polls show no secret, unless they tear it apart or send it in a
payload.
-/

namespace ManagementShell.Session
open Text Masking

variable {σ : Type} {c : Char} {secret password : Text} {calm : σ → Prop} {assumed : Prop}

/-- Events have been added. -/
def Grows (before after : Session σ) : Prop :=
  ∃ added, after.connection.events = before.connection.events ++ added

theorem grows_of_remains {α : Type} {action : Action σ α} (remains : Leads Remains action) :
    Leads Grows action :=
  have grown {before after : Session σ} (step : Remains before after) : Grows before after :=
    step.events.imp fun _ => And.left
  fun before => (remains before).weaken (fun _ _ => grown) (fun _ _ => grown)

theorem onConnection_secures (fresh : Fresh c) {α : Type}
    {action : EStateM Failure (Connection σ) α} {guaranteed : α → Prop}
    (secures : (Connection.policy c secret password calm).Secures assumed action guaranteed) :
    (steadyPolicy c secret password calm).Secures assumed (onConnection action) guaranteed := by
  intro session
  rw [ends_onConnection]
  refine (secures session.connection).weaken (fun value connection ends => ?_)
    (fun cause connection ends => ?_)
  · obtain ⟨added, events, step⟩ := ends
    refine ⟨added, events, fun good isAssumed careful => ?_⟩
    obtain ⟨quiet, goodAfter, holds⟩ := step good.1.connection isAssumed careful
    exact ⟨quiet, ⟨⟨good.1.store, goodAfter, good.1.response, good.1.frames⟩, good.2⟩, holds⟩
  · obtain ⟨added, events, step⟩ := ends
    refine ⟨added, events, fun good isAssumed careful => ?_⟩
    obtain ⟨quiet, goodAfter, quotes⟩ := step good.1.connection isAssumed careful
    exact ⟨quiet, ⟨⟨good.1.store, goodAfter, good.1.response, good.1.frames⟩, good.2⟩,
      Failure.message_whole fresh quotes⟩

/-- The password is the secret or does not have the character, so a text whose secret is masked can
be shown with the password masked. -/
theorem Guarded.whole {session : Session σ} (guarded : session.Guarded c secret calm) {text : Text}
    (whole : Whole c secret text) (lacks : c ∉ session.store.passwordText → c ∉ text) :
    Whole c session.store.passwordText text := by
  rcases guarded.store.password with isSecret | free
  · rwa [isSecret]
  · exact whole_of_lacks (lacks free)

section

variable {setting : Setting σ} (discreet : setting.Discreet c calm) (fresh : Fresh c)
include discreet fresh

theorem expandAll_secures {words : List Text} (lacks : ∀ word ∈ words, c ∉ word) :
    (steadyPolicy c secret password calm).Secures assumed (expandAll setting words) fun expanded =>
      c ∉ password → ∀ word ∈ expanded, c ∉ word := by
  induction words generalizing assumed with
  | nil => exact Policy.secures_pure fun _ _ => List.forall_mem_nil _
  | cons word rest inductionHypothesis =>
      rw [List.forall_mem_cons] at lacks
      apply Policy.Secures.bind (expandSecret_secures discreet fresh lacks.1)
      intro expanded
      apply Policy.Secures.bind (inductionHypothesis lacks.2)
      intro others
      exact Policy.secures_pure fun holds free =>
        List.forall_mem_cons.mpr ⟨holds.1.2 free, holds.2 free⟩

omit discreet in
/-- That a call is read is an event of its own, which is only assumed to tear no secret apart. -/
theorem called_secures {words : List Text}
    (lacks : assumed → c ∉ password → ∀ word ∈ words, c ∉ word) :
    (steadyPolicy c secret password calm).Secures assumed (emit (.called words)) fun _ =>
      ∀ text ∈ Call.texts secret words, Whole c password text := by
  refine fun session => Policy.step_of_event rfl fun good isAssumed careful => ?_
  refine ⟨trivial, ⟨addEvent_guarded good.1 _, good.2⟩, fun text member => ?_⟩
  have masked : c ∉ mask := fresh.literal (by decide)
  rw [← good.2]
  refine good.1.whole ((hideSecret_lacks_iff masked).mp (careful text member)) fun free => ?_
  rw [good.2] at free
  have lacksWords := lacks isAssumed free
  unfold Call.texts at member
  split at member
  · rename_i call records isRead
    rcases List.mem_append.mp member with isWord | isPart
    · exact lacksWords text isWord
    · exact Call.parts_lacks (Call.ofWords_lacks isRead lacksWords) text isPart
  · exact lacksWords text member

omit discreet in
theorem read_secures {words : List Text} {current : Text}
    (whole : assumed → current = password ∧
      ∀ text ∈ Call.texts secret words, Whole c password text) :
    (steadyPolicy c secret password calm).Secures assumed (check (Call.ofWords current words))
      fun read => (∀ record ∈ read.2, c ∉ record.message) ∧
        ∀ part ∈ read.1.parts, Whole c password part := by
  refine check_secures fun isAssumed => ?_
  obtain ⟨isPassword, wholeTexts⟩ := whole isAssumed
  rw [isPassword]
  exact Call.ofWords_gives fresh wholeTexts

omit fresh in
theorem basis_guarded {session : Session σ} (guarded : session.Guarded c secret calm) :
    (basis setting session).Guarded c secret :=
  ⟨discreet.catalog, guarded.store, discreet.program, discreet.flags, guarded.connection.files⟩

/-- The steps of a request do not change the password, so its failures can be masked when they are
reported. -/
theorem request_secures (unquoted : '\'' ∉ secret) {words : List Text}
    (lacks : ∀ word ∈ words, c ∉ word) :
    (steadyPolicy c secret password calm).Secures assumed (request setting words)
      (Request.Shows c) := by
  apply Policy.Secures.bind (expandAll_secures discreet fresh lacks)
  intro expanded
  apply Policy.Secures.bind (called_secures fresh fun holds => holds.2)
  intro _
  apply Policy.Secures.bind Policy.secures_get
  intro session
  apply Policy.Secures.bind (read_secures fresh fun holds => ⟨holds.2.2, holds.1.2⟩)
  intro read
  apply Policy.Secures.andThen (recordAll_secures fun holds => holds.2.1)
  intro _
  apply Policy.Secures.andThen
  · exact Policy.secures_modify (fun _ => rfl) fun current good _ =>
      ⟨⟨⟨good.1.store, good.1.connection, Response.empty_lacks, good.1.frames⟩, good.2⟩, trivial⟩
  intro _
  apply Policy.Secures.bind Policy.secures_get
  intro current
  refine Policy.secures_of_assumed
    (grows_of_remains (onConnection_remains (Connection.build_continues _ _ _)))
    fun holds => ?_
  obtain ⟨⟨_, _, parts⟩, good, isPassword⟩ := holds
  subst isPassword
  refine onConnection_secures fresh (Connection.build_secures (basis_guarded discreet good) fresh
    (fun member => ?_) discreet.peer parts)
  rcases good.store.password with isSecret | free
  · change '\'' ∉ current.store.passwordText
    rwa [isSecret]
  · exact absurd member free

end

section

variable {request : Request} (shows : assumed → request.Shows c) (fresh : Fresh c)
include shows fresh

theorem announce_secures (free : ∀ payload ∈ request.invocation.payload, c ∉ payload) :
    (steadyPolicy c secret password calm).Secures assumed (announce request) fun _ => True := by
  have ends : c ∉ ("\n\n" : Text) := fresh.literal (by decide)
  apply Policy.Secures.bind
  · refine display_secures fun isAssumed => ?_
    rw [List.mem_append, not_or]
    exact ⟨(shows isAssumed).command, ends⟩
  intro _
  split
  · rename_i first rest isPayload
    exact display_secures fun _ => free _ isPayload
  · exact Policy.secures_pure fun _ => trivial

theorem showTime_secures (setting : Setting σ) (started : Nat) :
    (steadyPolicy c secret password calm).Secures assumed (showTime setting request.method started)
      fun _ => True := by
  apply Policy.Secures.bind (lookAtClock_secures setting.clock)
  intro ended
  refine write_secures fun holds => ?_
  unfold timerLine
  simp only [List.mem_append, not_or]
  exact ⟨⟨⟨⟨fresh.literal (by decide), (shows holds.1).method⟩, fresh.literal (by decide)⟩,
    ofNat_lacks fresh _⟩, fresh.literal (by decide)⟩

omit shows in
theorem logEntry_lacks (shows : request.Shows c)
    (free : ∀ payload ∈ request.invocation.payload, c ∉ payload) {response : Response}
    (lacks : response.Lacks c) : c ∉ logEntry request response := by
  have ends : c ∉ ("\n" : Text) := fresh.literal (by decide)
  have payload : c ∉ request.invocation.payload.getD [] := by
    cases isPayload : request.invocation.payload with
    | none => exact List.not_mem_nil
    | some payload => exact free payload isPayload
  unfold logEntry
  simp only [List.mem_append, not_or]
  exact ⟨⟨⟨⟨⟨shows.command, ends⟩, payload⟩, ends⟩, lacks.xml⟩, fresh.literal (by decide)⟩

theorem exchange_secures {setting : Setting σ} (discreet : setting.Discreet c calm) :
    (steadyPolicy c secret password calm).Secures assumed (exchange setting request) fun response =>
      response.Lacks c := by
  by_cases free : ∀ payload ∈ request.invocation.payload, c ∉ payload
  · apply Policy.Secures.bind Policy.secures_get
    intro session
    apply Policy.Secures.andThen
    · exact onlyIf_secures (announce_secures (fun holds => shows holds.1) fresh free)
    intro _
    apply Policy.Secures.andThen (lookAtClock_secures setting.clock)
    intro started
    apply Policy.Secures.bind (onConnection_secures fresh (Connection.send_secures discreet.peer _).under)
    intro output
    have answered {holds : Prop} (discreet : holds ∧ Response.Discreet c output.text) :
        (Response.ofOutput output.text).Lacks c := Response.ofOutput_lacks fresh discreet.2
    apply Policy.Secures.andThen
    · exact onlyIf_secures (display_secures fun holds => Response.shown_lacks fresh (answered holds) _)
    intro _
    apply Policy.Secures.andThen
    · exact addToLog_secures fun holds => logEntry_lacks fresh (shows holds.1.1) free (answered holds)
    intro _
    apply Policy.Secures.andThen
    · exact onlyIf_secures (showTime_secures (fun holds => shows holds.1.1) fresh setting started)
    intro _
    exact Policy.secures_pure answered
  · -- The payload was sent, which is assumed not to happen.
    have sent {before after : Session σ} {wanted : Prop}
        (exchanges : Exchanges request.invocation before after) :
        (steadyPolicy c secret password calm).Step assumed wanted before after := by
      obtain ⟨early, late, events, _⟩ := exchanges.events
      refine ⟨_, events, fun _ _ careful => absurd (careful (.sent request.invocation) ?_) free⟩
      exact List.mem_append_right _ List.mem_cons_self
    exact fun before => (exchange_exchanges setting request before).weaken (fun _ _ => sent)
      (fun _ _ => sent)

end

/-- Neither the condition of the poll nor a word of its call has the character. -/
structure Poll.Lacks (c : Char) (poll : Poll) : Prop where
  field : c ∉ poll.field
  value : c ∉ poll.value
  words : ∀ word ∈ poll.words, c ∉ word

theorem progress_lacks (fresh : Fresh c) {poll : Poll} (lacks : poll.Lacks c) {root : Element}
    (lacksRoot : root.Lacks c) : c ∉ poll.progress root := by
  have opens : c ∉ (" [" : Text) := fresh.literal (by decide)
  have closes : c ∉ ("]" : Text) := fresh.literal (by decide)
  have values : ∀ occurrence ∈ Extraction.findAll root.rootPlace poll.field (some 1),
      c ∉ occurrence.value := Extraction.findAll_lacks lacksRoot poll.field (some 1)
  unfold Poll.progress
  simp only [List.mem_append, not_or]
  refine ⟨⟨⟨⟨⟨fresh.literal (by decide), lacks.field⟩, fresh.literal (by decide)⟩,
    lacks.value⟩, ?_⟩, fresh.literal (by decide)⟩
  split
  · rename_i found _ isFound
    simp only [List.mem_append, not_or]
    exact ⟨⟨opens, values found (by simp [isFound])⟩, closes⟩
  · exact List.not_mem_nil

theorem timing?_words {interval timeout : Text} {rest : List Text} {times : Nat × Nat × List Text}
    (isTiming : timing? interval timeout rest = some times) : times.2.2 = rest := by
  unfold timing? at isTiming
  split at isTiming
  · split at isTiming
    · cases isTiming
    · cases isTiming
      rfl
  · cases isTiming

/-- The words of the call are among the words of the poll. -/
theorem timing_secures {setting : Setting σ} {words : List Text} (lacks : ∀ word ∈ words, c ∉ word) :
    (steadyPolicy c secret password calm).Secures assumed (timing setting words) fun times =>
      ∀ word ∈ times.2.2, c ∉ word := by
  apply Policy.Secures.bind Policy.secures_get
  intro session
  refine Policy.secures_pure fun _ => ?_
  split
  · rename_i interval timeout rest
    cases isTiming : timing? (session.store.expand (session.date setting.clock) interval)
        (session.store.expand (session.date setting.clock) timeout) rest with
    | none => exact lacks
    | some times =>
        rw [Option.getD_some, timing?_words isTiming]
        exact fun word member => lacks word (.tail _ (.tail _ member))
  · exact lacks

section

variable {setting : Setting σ} (discreet : setting.Discreet c calm) (fresh : Fresh c)
  (unquoted : '\'' ∉ secret)
include discreet fresh unquoted

theorem call_secures {words : List Text} (lacks : ∀ word ∈ words, c ∉ word) :
    (steadyPolicy c secret password calm).Secures assumed (call setting words) fun _ => True := by
  apply Policy.Secures.bind (request_secures discreet fresh unquoted lacks)
  intro request
  apply Policy.Secures.bind (exchange_secures (fun holds => holds.2) fresh discreet)
  intro response
  apply Policy.Secures.andThen
  · exact Policy.secures_modify (fun _ => rfl) fun session good holds =>
      ⟨⟨⟨good.1.store, good.1.connection, holds.2, good.1.frames⟩, good.2⟩, trivial⟩
  · exact fun _ => Policy.secures_pure fun _ => trivial

/-- The induction is on the number of calls that the poll may make. -/
theorem pollRun_secures {poll : Poll} (lacks : poll.Lacks c) (started calls : Nat) :
    (steadyPolicy c secret password calm).Secures assumed (Poll.run setting poll started calls)
      fun _ => True := by
  have timedOut : c ∉ (Failure.timeout poll.timeout).message := Failure.message_lacks fresh trivial
  induction calls with
  | zero => exact exhausted_secures
  | succ calls inductionHypothesis =>
      apply Policy.Secures.andThen (call_secures discreet fresh unquoted lacks.words)
      intro answered
      split
      · exact Policy.secures_pure fun _ => trivial
      · apply Policy.Secures.bind Policy.secures_get
        intro session
        split
        · exact Policy.secures_pure fun _ => trivial
        · rename_i root isTree
          split
          · exact Policy.secures_pure fun _ => trivial
          · apply Policy.Secures.andThen
            · exact onlyIf_secures (display_secures fun holds =>
                progress_lacks fresh lacks (holds.2.1.response.tree root isTree))
            intro _
            apply Policy.Secures.andThen (sleep_secures _)
            intro _
            apply Policy.Secures.andThen (lookAtClock_secures _)
            intro ended
            apply Policy.Secures.andThen
            · exact onlyIf_secures (fail_secures fun _ => whole_of_lacks timedOut)
            intro _
            exact inductionHypothesis.weaken And.left fun _ _ _ => trivial

theorem poll_secures (calls : Nat) {condition : Text} {words : List Text} (lacks : c ∉ condition)
    (lacksWords : ∀ word ∈ words, c ∉ word) :
    (steadyPolicy c secret password calm).Secures assumed (poll setting calls condition words)
      fun _ => True := by
  have unclear {text : Text} (lacksText : c ∉ text) : c ∉ (Failure.malformedCondition text).message :=
    Failure.message_lacks fresh lacksText
  have noCall : c ∉ (Failure.script .nothingToPoll).message := Failure.message_lacks fresh trivial
  apply Policy.Secures.bind (expand_secures discreet fresh fun _ => lacks)
  intro expanded
  split
  · rename_i field value isSplit
    apply Policy.Secures.bind (timing_secures lacksWords)
    intro times
    apply Policy.Secures.andThen
    · exact onlyIf_secures (fail_secures fun _ => whole_of_lacks noCall)
    intro _
    apply Policy.Secures.andThen (lookAtClock_secures _)
    intro started
    refine Policy.secures_of_assumed (grows_of_remains (pollRun_remains _ _ _ _)) fun holds => ?_
    have sides : ∀ side ∈ splitOn expanded '=', c ∉ side := splitOn_lacks holds.1.2
    rw [isSplit, List.forall_mem_cons, List.forall_mem_singleton] at sides
    exact pollRun_secures discreet fresh unquoted ⟨sides.1, sides.2, holds.2⟩ _ _
  · exact fail_secures fun holds => whole_of_lacks (unclear holds.2)

end

end ManagementShell.Session

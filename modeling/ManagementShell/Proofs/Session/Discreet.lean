import ManagementShell.Proofs.Connection
import ManagementShell.Proofs.Session.Frame
import ManagementShell.Proofs.Session.Still

/-
This file shows that the small actions of a session neither show a secret nor put it anywhere.
-/

namespace ManagementShell
open Text Masking

variable {σ : Type} {c : Char} {secret : Text} {calm : σ → Prop}

/-- Nothing that stays as it is in a session has the character, nor does anything that comes from
outside. -/
structure Setting.Discreet (c : Char) (calm : σ → Prop) (setting : Setting σ) : Prop where
  catalog : setting.catalog.Lacks c
  program : c ∉ setting.client.program
  flags : ∀ flag ∈ setting.client.flags, c ∉ flag
  date : ∀ time, c ∉ setting.clock.date time
  stamp : ∀ time, c ∉ setting.clock.stamp time
  peer : setting.peer.Discreet c calm

namespace Session

/-- Only the password may have the character, and only if it is the secret. -/
structure Guarded (c : Char) (secret : Text) (calm : σ → Prop) (session : Session σ) : Prop where
  store : session.store.Guarded c secret
  connection : session.connection.Guarded c calm
  response : session.response.Lacks c
  frames : ∀ frame ∈ session.frames, frame.Lacks c

/-- The message of a failure has the password only as a whole. -/
def Tells (c : Char) (password : Text) : Halt → Prop
  | .failed cause => Whole c password cause.message
  | .exhausted => True

def policy (c : Char) (secret : Text) (calm : σ → Prop) : Policy Halt (Session σ) where
  events session := session.connection.events
  careful := Event.Careful c secret
  quiet := Event.Quiet c
  good := Guarded c secret calm
  tells halt session := Tells c session.store.passwordText halt

/-- The password stays the given one. -/
def steadyPolicy (c : Char) (secret password : Text) (calm : σ → Prop) :
    Policy Halt (Session σ) where
  events session := session.connection.events
  careful := Event.Careful c secret
  quiet := Event.Quiet c
  good session := session.Guarded c secret calm ∧ session.store.passwordText = password
  tells halt _ := Tells c password halt

variable {α : Type} {assumed : Prop}

/-- What an action does to a steady password it does to the one that the session has. -/
theorem ends_of_steady {action : Action σ α} {guaranteed : α → Prop} {before : Session σ}
    (secures : (steadyPolicy c secret before.store.passwordText calm).Secures assumed action
      guaranteed) :
    Ends action before
      (fun value after => (policy c secret calm).Step assumed (guaranteed value) before after)
      fun halt after =>
        (policy c secret calm).Step assumed ((policy c secret calm).tells halt after) before after := by
  refine (secures before).weaken ?_ ?_
  · rintro value after ⟨added, events, step⟩
    refine ⟨added, events, fun good isAssumed careful => ?_⟩
    obtain ⟨quiet, goodAfter, holds⟩ := step ⟨good, rfl⟩ isAssumed careful
    exact ⟨quiet, goodAfter.1, holds⟩
  · rintro halt after ⟨added, events, step⟩
    refine ⟨added, events, fun good isAssumed careful => ?_⟩
    obtain ⟨quiet, goodAfter, tells⟩ := step ⟨good, rfl⟩ isAssumed careful
    refine ⟨quiet, goodAfter.1, ?_⟩
    change Tells c after.store.passwordText halt
    rw [goodAfter.2]
    exact tells

theorem secures_of_steady {action : Action σ α} {guaranteed : α → Prop}
    (secures : ∀ password, (steadyPolicy c secret password calm).Secures assumed action guaranteed) :
    (policy c secret calm).Secures assumed action guaranteed :=
  fun _ => ends_of_steady (secures _)

variable {password : Text}

theorem addEvent_guarded {session : Session σ} (guarded : session.Guarded c secret calm)
    (event : Event) : (session.addEvent event).Guarded c secret calm :=
  ⟨guarded.store, ⟨guarded.connection.files, guarded.connection.cache, guarded.connection.peer⟩,
    guarded.response, guarded.frames⟩

theorem fail_secures {cause : Failure} {guaranteed : α → Prop}
    (tells : assumed → Whole c password cause.message) :
    (steadyPolicy c secret password calm).Secures assumed (fail cause : Action σ α) guaranteed :=
  Policy.secures_throw fun _ _ isAssumed => tells isAssumed

theorem exhausted_secures {guaranteed : α → Prop} :
    (steadyPolicy c secret password calm).Secures assumed (throw .exhausted : Action σ α)
      guaranteed :=
  Policy.secures_throw fun _ _ _ => trivial

theorem check_secures {outcome : Except Failure α} {guaranteed : α → Prop}
    (gives : assumed → Gives outcome guaranteed fun cause => Whole c password cause.message) :
    (steadyPolicy c secret password calm).Secures assumed (check outcome : Action σ α)
      guaranteed := by
  cases outcome with
  | ok value => exact Policy.secures_pure gives
  | error cause => exact fail_secures gives

theorem onlyIf_secures {policy : Policy Halt (Session σ)} {condition : Prop} [Decidable condition]
    {action : Action σ Unit} (secures : policy.Secures assumed action fun _ => True) :
    policy.Secures assumed (onlyIf condition action) fun _ => True := by
  unfold onlyIf
  split
  · exact secures
  · exact Policy.secures_pure fun _ => trivial

theorem emit_secures {event : Event} {guaranteed : Prop}
    (quiet : assumed → event.Careful c secret → event.Quiet c ∧ guaranteed) :
    (steadyPolicy c secret password calm).Secures assumed (emit event) fun _ => guaranteed :=
  fun _ => Policy.step_of_event rfl fun good isAssumed careful =>
    ⟨(quiet isAssumed careful).1, ⟨addEvent_guarded good.1 event, good.2⟩,
      (quiet isAssumed careful).2⟩

theorem record_secures {entry : Record} (lacks : assumed → c ∉ entry.message) :
    (steadyPolicy c secret password calm).Secures assumed (record entry) fun _ => True :=
  emit_secures fun isAssumed _ => ⟨lacks isAssumed, trivial⟩

theorem recordAll_secures {entries : List Record}
    (lacks : assumed → ∀ entry ∈ entries, c ∉ entry.message) :
    (steadyPolicy c secret password calm).Secures assumed (recordAll entries) fun _ => True := by
  induction entries with
  | nil => exact Policy.secures_pure fun _ => trivial
  | cons entry rest inductionHypothesis =>
      simp only [List.mem_cons, forall_eq_or_imp] at lacks
      apply Policy.Secures.bind (record_secures fun isAssumed => (lacks isAssumed).1)
      intro _
      exact (inductionHypothesis fun isAssumed => (lacks isAssumed).2).weaken (fun holds => holds.1)
        fun _ _ _ => trivial

theorem display_secures {text : Text} (lacks : assumed → c ∉ text) :
    (steadyPolicy c secret password calm).Secures assumed (display text) fun _ => True :=
  emit_secures fun isAssumed _ => ⟨lacks isAssumed, trivial⟩

/-- The log file gets no text with the character, so it can be read again. -/
theorem addToLog_secures {text : Text} (lacks : assumed → c ∉ text) :
    (steadyPolicy c secret password calm).Secures assumed (addToLog text) fun _ => True := by
  intro session
  simp only [addToLog, ends_modify]
  split
  · rename_i location _
    refine Policy.step_of_event rfl fun good isAssumed _ => ⟨lacks isAssumed, ⟨?_, good.2⟩, trivial⟩
    have files := FileTree.append_lacks good.1.connection.files location (lacks isAssumed)
    exact ⟨good.1.store, ⟨files, good.1.connection.cache, good.1.connection.peer⟩,
      good.1.response, good.1.frames⟩
  · exact Policy.step_of_events rfl fun good _ => ⟨good, trivial⟩

theorem write_secures {text : Text} (lacks : assumed → c ∉ text) :
    (steadyPolicy c secret password calm).Secures assumed (write text) fun _ => True :=
  Policy.Secures.bind (display_secures lacks) fun _ => addToLog_secures fun holds => lacks holds.1

theorem lookAtClock_secures (clock : Clock) :
    (steadyPolicy c secret password calm).Secures assumed (lookAtClock clock) fun _ => True :=
  fun _ => Policy.step_of_events rfl fun good _ =>
    ⟨⟨⟨good.1.store, good.1.connection, good.1.response, good.1.frames⟩, good.2⟩, trivial⟩

theorem sleep_secures (seconds : Nat) :
    (steadyPolicy c secret password calm).Secures assumed (sleep seconds) fun _ => True :=
  fun _ => Policy.step_of_events rfl fun good _ =>
    ⟨⟨⟨good.1.store, good.1.connection, good.1.response, good.1.frames⟩, good.2⟩, trivial⟩

section

variable {setting : Setting σ} (discreet : setting.Discreet c calm) (fresh : Fresh c)
include discreet fresh

theorem expand_secures {text : Text} (lacks : assumed → c ∉ text) :
    (steadyPolicy c secret password calm).Secures assumed (expand setting text) fun expanded =>
      c ∉ expanded := by
  apply Policy.Secures.bind Policy.secures_get
  intro session
  exact Policy.secures_pure fun holds =>
    Store.expand_lacks holds.2.1.store fresh (discreet.date _) (lacks holds.1)

theorem expandSecret_secures {text : Text} (lacks : c ∉ text) :
    (steadyPolicy c secret password calm).Secures assumed (expandSecret setting text) fun expanded =>
      c ∉ password → c ∉ expanded := by
  apply Policy.Secures.bind Policy.secures_get
  intro session
  refine Policy.secures_pure fun holds free => ?_
  obtain ⟨good, isPassword⟩ := holds.2
  rw [← isPassword] at free
  exact Store.expandSecret_lacks good.store fresh free (discreet.date _) lacks

end

end Session

end ManagementShell

import ManagementShell.Proofs.Outcome

/-
This file states what actions guarantee of the events that they add, as far as they may assume
something of these events, and derives it for an action from its steps.
-/

namespace ManagementShell

variable {ε σ α β : Type}

/-- What is assumed of events and what has to hold of them, of the states between actions, and of a
cause when an action halts. -/
structure Policy (ε σ : Type) where
  events : σ → List Event
  careful : Event → Prop
  quiet : Event → Prop
  good : σ → Prop
  tells : ε → σ → Prop

namespace Policy

variable {policy : Policy ε σ}

/-- Events have been added. If the first state is good and they are careful, then they are quiet and
the second state is good. -/
def Step (policy : Policy ε σ) (assumed guaranteed : Prop) (before after : σ) : Prop :=
  ∃ added, policy.events after = policy.events before ++ added ∧
    (policy.good before → assumed → (∀ event ∈ added, policy.careful event) →
      (∀ event ∈ added, policy.quiet event) ∧ policy.good after ∧ guaranteed)

/-- However the action ends, it makes such a step. -/
def Secures (policy : Policy ε σ) (assumed : Prop) (action : EStateM ε σ α)
    (guaranteed : α → Prop) : Prop :=
  ∀ before, Ends action before
    (fun value after => policy.Step assumed (guaranteed value) before after)
    (fun cause after => policy.Step assumed (policy.tells cause after) before after)

section

variable {assumed middle guaranteed : Prop}

/-- A step that adds no event. -/
theorem step_of_events {before after : σ} (events : policy.events after = policy.events before)
    (good : policy.good before → assumed → policy.good after ∧ guaranteed) :
    policy.Step assumed guaranteed before after :=
  ⟨[], by simp [events], fun isGood holds _ => ⟨by simp, good isGood holds⟩⟩

/-- A step that adds one event. -/
theorem step_of_event {before after : σ} {event : Event}
    (events : policy.events after = policy.events before ++ [event])
    (good : policy.good before → assumed → policy.careful event →
      policy.quiet event ∧ policy.good after ∧ guaranteed) :
    policy.Step assumed guaranteed before after :=
  ⟨[event], events, fun isGood holds careful => by
    simpa using good isGood holds (careful event List.mem_cons_self)⟩

theorem Step.weaken {before after : σ} {weaker : Prop}
    (step : policy.Step assumed guaranteed before after) (holds : guaranteed → weaker) :
    policy.Step assumed weaker before after := by
  obtain ⟨added, events, secures⟩ := step
  refine ⟨added, events, fun good isAssumed careful => ?_⟩
  obtain ⟨quiet, goodAfter, isGuaranteed⟩ := secures good isAssumed careful
  exact ⟨quiet, goodAfter, holds isGuaranteed⟩

/-- What the first step guarantees can be assumed in the second one. -/
theorem Step.append {first second third : σ} (begins : policy.Step assumed middle first second)
    (ends : policy.Step (assumed ∧ middle) guaranteed second third) :
    policy.Step assumed guaranteed first third := by
  obtain ⟨early, earlyEvents, securesEarly⟩ := begins
  obtain ⟨late, lateEvents, securesLate⟩ := ends
  refine ⟨early ++ late, by rw [lateEvents, earlyEvents, List.append_assoc], ?_⟩
  intro good isAssumed careful
  simp only [List.mem_append, or_imp, forall_and] at careful ⊢
  obtain ⟨quietEarly, goodMiddle, isMiddle⟩ := securesEarly good isAssumed careful.1
  obtain ⟨quietLate, goodAfter, isGuaranteed⟩ := securesLate goodMiddle ⟨isAssumed, isMiddle⟩ careful.2
  exact ⟨⟨quietEarly, quietLate⟩, goodAfter, isGuaranteed⟩

end

variable {assumed : Prop}

theorem Secures.weaken {action : EStateM ε σ α} {guaranteed weaker : α → Prop} {stronger : Prop}
    (secures : policy.Secures assumed action guaranteed) (assumes : stronger → assumed)
    (holds : ∀ value, stronger → guaranteed value → weaker value) :
    policy.Secures stronger action weaker := by
  have step {before after : σ} {isGuaranteed wanted : Prop}
      (old : policy.Step assumed isGuaranteed before after)
      (implies : stronger → isGuaranteed → wanted) : policy.Step stronger wanted before after := by
    obtain ⟨added, events, secures⟩ := old
    refine ⟨added, events, fun good isStronger careful => ?_⟩
    obtain ⟨quiet, goodAfter, isGuaranteed⟩ := secures good (assumes isStronger) careful
    exact ⟨quiet, goodAfter, implies isStronger isGuaranteed⟩
  exact fun before => (secures before).weaken (fun value _ old => step old (holds value))
    (fun _ _ old => step old fun _ tells => tells)

/-- An action goes on from the end of a step. -/
theorem Step.goesOn {action : EStateM ε σ α} {middle : Prop} {guaranteed : α → Prop}
    {start before : σ} (begins : policy.Step assumed middle start before)
    (ends : Ends action before
      (fun value after => policy.Step (assumed ∧ middle) (guaranteed value) before after)
      fun cause after => policy.Step (assumed ∧ middle) (policy.tells cause after) before after) :
    Ends action before (fun value after => policy.Step assumed (guaranteed value) start after)
      fun cause after => policy.Step assumed (policy.tells cause after) start after :=
  ends.weaken (fun _ _ later => begins.append later) (fun _ _ later => begins.append later)

theorem Secures.after {action : EStateM ε σ α} {middle : Prop} {guaranteed : α → Prop}
    {start before : σ} (secures : policy.Secures (assumed ∧ middle) action guaranteed)
    (begins : policy.Step assumed middle start before) :
    Ends action before (fun value after => policy.Step assumed (guaranteed value) start after)
      (fun cause after => policy.Step assumed (policy.tells cause after) start after) :=
  begins.goesOn (secures before)

theorem Secures.bind {action : EStateM ε σ α} {next : α → EStateM ε σ β} {middle : α → Prop}
    {guaranteed : β → Prop} (first : policy.Secures assumed action middle)
    (second : ∀ value, policy.Secures (assumed ∧ middle value) (next value) guaranteed) :
    policy.Secures assumed (action >>= next) guaranteed := by
  intro before
  rw [ends_bind]
  exact (first before).weaken (fun value _ begins => (second value).after begins)
    (fun _ _ halts => halts)

/-- An action with a value that nothing is said about. -/
theorem Secures.andThen {action : EStateM ε σ α} {next : α → EStateM ε σ β} {guaranteed : β → Prop}
    (first : policy.Secures assumed action fun _ => True)
    (second : ∀ value, policy.Secures assumed (next value) guaranteed) :
    policy.Secures assumed (action >>= next) guaranteed :=
  first.bind fun value => (second value).weaken And.left fun _ _ holds => holds

theorem Secures.under {action : EStateM ε σ α} {guaranteed : α → Prop}
    (secures : policy.Secures True action guaranteed) : policy.Secures assumed action guaranteed :=
  secures.weaken (fun _ => trivial) fun _ _ holds => holds

/-- An assumption is taken for granted, except that the action has to add events without it too. -/
theorem secures_of_assumed {action : EStateM ε σ α} {guaranteed : α → Prop}
    (grows : Leads (fun before after =>
      ∃ added, policy.events after = policy.events before ++ added) action)
    (secures : assumed → policy.Secures True action guaranteed) :
    policy.Secures assumed action guaranteed := by
  by_cases isAssumed : assumed
  · exact (secures isAssumed).under
  · have ignored {before after : σ} {wanted : Prop}
        (grown : ∃ added, policy.events after = policy.events before ++ added) :
        policy.Step assumed wanted before after := by
      obtain ⟨added, events⟩ := grown
      exact ⟨added, events, fun _ holds => absurd holds isAssumed⟩
    exact fun before => (grows before).weaken (fun _ _ => ignored) (fun _ _ => ignored)

theorem secures_pure {value : α} {guaranteed : α → Prop} (holds : assumed → guaranteed value) :
    policy.Secures assumed (pure value : EStateM ε σ α) guaranteed :=
  fun _ => step_of_events rfl fun good isAssumed => ⟨good, holds isAssumed⟩

theorem secures_throw {cause : ε} {guaranteed : α → Prop}
    (tells : ∀ state, policy.good state → assumed → policy.tells cause state) :
    policy.Secures assumed (throw cause : EStateM ε σ α) guaranteed :=
  fun state => step_of_events rfl fun good isAssumed => ⟨good, tells state good isAssumed⟩

theorem secures_get :
    policy.Secures assumed (get : EStateM ε σ σ) fun state => policy.good state :=
  fun _ => step_of_events rfl fun good _ => ⟨good, good⟩

theorem secures_modify {change : σ → σ} {guaranteed : Prop}
    (events : ∀ state, policy.events (change state) = policy.events state)
    (good : ∀ state, policy.good state → assumed → policy.good (change state) ∧ guaranteed) :
    policy.Secures assumed (modify change : EStateM ε σ PUnit) fun _ => guaranteed :=
  fun state => step_of_events (events state) (good state)

end Policy

end ManagementShell

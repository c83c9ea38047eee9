import ManagementShell.Session.State

/-
This file states what an action or an outcome ends with, and takes both apart into their steps.
-/

namespace ManagementShell

universe u

variable {ε σ α β : Type}

/-- From the state `before`, the action ends with a value and a state that have the first property,
or it halts with a cause and a state that have the second one. -/
def Ends (action : EStateM ε σ α) (before : σ) (done : α → σ → Prop) (halted : ε → σ → Prop) :
    Prop :=
  match action before with
  | .ok value after => done value after
  | .error cause after => halted cause after

section

variable {before : σ} {done : α → σ → Prop} {halted : ε → σ → Prop}

@[simp] theorem ends_pure (value : α) :
    Ends (pure value) before done halted ↔ done value before := Iff.rfl

@[simp] theorem ends_throw (cause : ε) :
    Ends (throw cause) before done halted ↔ halted cause before := Iff.rfl

@[simp] theorem ends_bind (action : EStateM ε σ β) (next : β → EStateM ε σ α) :
    Ends (action >>= next) before done halted ↔
      Ends action before (fun value after => Ends (next value) after done halted) halted := by
  simp only [Ends, bind, EStateM.bind]
  cases action before <;> rfl

@[simp] theorem ends_map (action : EStateM ε σ β) (change : β → α) :
    Ends (change <$> action) before done halted ↔
      Ends action before (fun value after => done (change value) after) halted := by
  simp only [Ends, Functor.map, EStateM.map]
  cases action before <;> rfl

@[simp] theorem ends_get {done : σ → σ → Prop} :
    Ends (get : EStateM ε σ σ) before done halted ↔ done before before := Iff.rfl

@[simp] theorem ends_set (state : σ) {done : PUnit → σ → Prop} :
    Ends (set state : EStateM ε σ PUnit) before done halted ↔ done ⟨⟩ state := Iff.rfl

@[simp] theorem ends_modify (change : σ → σ) {done : PUnit → σ → Prop} :
    Ends (modify change : EStateM ε σ PUnit) before done halted ↔ done ⟨⟩ (change before) :=
  Iff.rfl

theorem ends_of_eq_ok {action : EStateM ε σ α} {value : α} {after : σ}
    (ran : action before = .ok value after) (holds : Ends action before done halted) :
    done value after := by
  rwa [Ends, ran] at holds

theorem ends_of_eq_error {action : EStateM ε σ α} {cause : ε} {after : σ}
    (ran : action before = .error cause after) (holds : Ends action before done halted) :
    halted cause after := by
  rwa [Ends, ran] at holds

theorem get_bind (next : σ → EStateM ε σ α) : ((get : EStateM ε σ σ) >>= next) before =
    next before before := rfl

theorem bind_of_eq_ok {action : EStateM ε σ β} {value : β} {after : σ}
    (ran : action before = .ok value after) (next : β → EStateM ε σ α) :
    (action >>= next) before = next value after := by
  simp only [bind, EStateM.bind, ran]

theorem bind_of_eq_error {action : EStateM ε σ β} {cause : ε} {after : σ}
    (ran : action before = .error cause after) (next : β → EStateM ε σ α) :
    (action >>= next) before = .error cause after := by
  simp only [bind, EStateM.bind, ran]

/-- What follows an action that ran runs in the state that it led to. -/
theorem run_bind_eq_ok {action : EStateM ε σ β} {next : β → EStateM ε σ α} {value : α} {after : σ} :
    (action >>= next) before = .ok value after ↔
      ∃ first between, action before = .ok first between ∧ next first between = .ok value after := by
  simp only [bind, EStateM.bind]
  cases action before <;> simp [and_assoc]

/-- Weaker properties are reached too. -/
theorem Ends.weaken {action : EStateM ε σ α} {done' : α → σ → Prop} {halted' : ε → σ → Prop}
    (holds : Ends action before done halted)
    (weakerDone : ∀ value after, done value after → done' value after)
    (weakerHalted : ∀ cause after, halted cause after → halted' cause after) :
    Ends action before done' halted' := by
  unfold Ends at *
  cases ran : action before with
  | ok value after =>
      rw [ran] at holds
      exact weakerDone value after holds
  | error cause after =>
      rw [ran] at holds
      exact weakerHalted cause after holds

/-- Two properties that are reached are reached together. -/
theorem Ends.both {action : EStateM ε σ α} {done' : α → σ → Prop} {halted' : ε → σ → Prop}
    (first : Ends action before done halted) (second : Ends action before done' halted') :
    Ends action before (fun value after => done value after ∧ done' value after)
      (fun cause after => halted cause after ∧ halted' cause after) := by
  unfold Ends at *
  cases ran : action before with
  | ok value after =>
      rw [ran] at first second
      exact ⟨first, second⟩
  | error cause after =>
      rw [ran] at first second
      exact ⟨first, second⟩

end

/-- The outcome is a value with the first property or a failure with the second one. -/
def Gives (outcome : Except ε α) (done : α → Prop) (failed : ε → Prop) : Prop :=
  match outcome with
  | .ok value => done value
  | .error cause => failed cause

section

variable {done : α → Prop} {failed : ε → Prop}

@[simp] theorem gives_ok (value : α) : Gives (.ok value) done failed ↔ done value := Iff.rfl

@[simp] theorem gives_pure (value : α) : Gives (pure value) done failed ↔ done value := Iff.rfl

@[simp] theorem gives_error (cause : ε) : Gives (.error cause) done failed ↔ failed cause :=
  Iff.rfl

@[simp] theorem gives_throw (cause : ε) : Gives (throw cause) done failed ↔ failed cause :=
  Iff.rfl

@[simp] theorem gives_bind (outcome : Except ε β) (next : β → Except ε α) :
    Gives (outcome >>= next) done failed ↔
      Gives outcome (fun value => Gives (next value) done failed) failed := by
  cases outcome <;> rfl

@[simp] theorem gives_map (outcome : Except ε β) (change : β → α) :
    Gives (outcome.map change) done failed ↔
      Gives outcome (fun value => done (change value)) failed := by
  cases outcome <;> rfl

theorem gives_ite {condition : Prop} [Decidable condition] {first second : Except ε α} :
    Gives (if condition then first else second) done failed ↔
      (condition → Gives first done failed) ∧ (¬condition → Gives second done failed) := by
  split <;> simp_all

theorem gives_of_eq_ok {outcome : Except ε α} {value : α} (given : outcome = .ok value)
    (holds : Gives outcome done failed) : done value := by
  rwa [given] at holds

theorem bind_eq_ok {outcome : Except ε β} {next : β → Except ε α} {value : α} :
    outcome >>= next = .ok value ↔ ∃ first, outcome = .ok first ∧ next first = .ok value := by
  cases outcome <;> simp [bind, Except.bind]

theorem map_eq_ok {outcome : Except ε β} {change : β → α} {value : α} :
    outcome.map change = .ok value ↔ ∃ first, outcome = .ok first ∧ change first = value := by
  cases outcome <;> simp [Except.map]

theorem Gives.weaken {outcome : Except ε α} {done' : α → Prop} {failed' : ε → Prop}
    (holds : Gives outcome done failed) (weakerDone : ∀ value, done value → done' value)
    (weakerFailed : ∀ cause, failed cause → failed' cause) : Gives outcome done' failed' := by
  cases outcome with
  | ok value => exact weakerDone value holds
  | error cause => exact weakerFailed cause holds

end

/-- A relation between the states before and after a run that holds of every run if it holds of its
steps. -/
structure Chains (relation : σ → σ → Prop) : Prop where
  stay : ∀ state, relation state state
  join : ∀ {first second third}, relation first second → relation second third →
    relation first third

/-- However the action ends, the state that it leaves is related to the state before. -/
def Leads (relation : σ → σ → Prop) (action : EStateM ε σ α) : Prop :=
  ∀ before, Ends action before (fun _ after => relation before after)
    (fun _ after => relation before after)

theorem Leads.relates {relation : σ → σ → Prop} {action : EStateM ε σ α}
    (leads : Leads relation action) {before after : σ} {value : α}
    (ran : action before = .ok value after) : relation before after := by
  have ended := leads before
  rwa [Ends, ran] at ended

section

variable {relation : σ → σ → Prop} (chains : Chains relation)
include chains

theorem leads_pure (value : α) : Leads relation (pure value : EStateM ε σ α) :=
  fun state => chains.stay state

theorem leads_throw (cause : ε) : Leads relation (throw cause : EStateM ε σ α) :=
  fun state => chains.stay state

theorem leads_get : Leads relation (get : EStateM ε σ σ) := fun state => chains.stay state

omit chains in
theorem leads_modify {change : σ → σ} (changes : ∀ state, relation state (change state)) :
    Leads relation (modify change : EStateM ε σ PUnit) := fun state => changes state

/-- A run that is already related to its start stays so through the action. -/
theorem Leads.after {action : EStateM ε σ α} (leads : Leads relation action) {start before : σ}
    (reached : relation start before) :
    Ends action before (fun _ after => relation start after)
      (fun _ after => relation start after) :=
  (leads before).weaken (fun _ _ step => chains.join reached step)
    (fun _ _ step => chains.join reached step)

theorem Leads.bind {action : EStateM ε σ α} {next : α → EStateM ε σ β}
    (first : Leads relation action) (second : ∀ value, Leads relation (next value)) :
    Leads relation (action >>= next) := by
  intro before
  rw [ends_bind]
  exact (first before).weaken (fun value _ step => (second value).after chains step)
    (fun _ _ step => step)

end

end ManagementShell

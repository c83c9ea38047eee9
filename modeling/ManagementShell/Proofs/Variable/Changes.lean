import ManagementShell.Proofs.Variable.Naming

/-
This file shows what any sequence of changes leaves of the variables: which are still defined, which
were not touched, how they are named, and which values the constrained ones have.
-/

namespace ManagementShell.Store
open Text Variable

/-- A change that a user, a script or an extraction asks for. A password that is asked for at a
terminal is one more `set`. -/
inductive Change where
  | set (name value : Text)
  | bind (name : Text) (value : Value)
  | clear (name : Text)
  | unset (name : Text)
  deriving DecidableEq, Repr

/-- A change that fails leaves the variables as they are. -/
def Change.apply (store : Store) : Change → Store
  | .set name value => match store.set name value with
    | .ok (changed, _) => changed
    | .error _ => store
  | .bind name value => match store.bind name value with
    | .ok changed => changed
    | .error _ => store
  | .clear name => store.clear name
  | .unset name => match store.unset name with
    | .ok (_, changed) => changed
    | .error _ => store

def afterAll (store : Store) (changes : List Change) : Store := changes.foldl Change.apply store

theorem afterAll_concat (store : Store) (changes : List Change) (last : Change) :
    store.afterAll (changes ++ [last]) = last.apply (store.afterAll changes) :=
  List.foldl_concat ..

/-- These variables have a rule. -/
def constrained : List Text := [device, format, program] ++ numeric

variable {store : Store}

/-- What a change does to a variable: nothing, or it writes a value that obeys the rule or that is
bound without one, or it removes a variable that is not required. -/
theorem Change.apply_cases (store : Store) (change : Change) (name : Text) :
    (change.apply store).stored? name = store.stored? name ∨
      (∃ value, (change.apply store).stored? name = some value ∧ checkWritable name = .ok () ∧
        (Admits name value ∨ change = .bind name value)) ∨
      ((change.apply store).stored? name = none ∧ category name = .settable) := by
  have removed {gone : Text} (settable : category gone = .settable) :
      (store.remove gone).stored? name = store.stored? name ∨
        (store.remove gone).stored? name = none ∧ category name = .settable := by
    rw [stored?_remove]
    split
    · rename_i same
      exact .inr ⟨rfl, same ▸ settable⟩
    · exact .inl rfl
  cases change with
  | set target value =>
      simp only [apply, Store.set]
      cases writable : checkWritable target with
      | error cause => exact .inl rfl
      | ok _ =>
          rcases (assign_writes writable value).stored?_cases name with same |
            ⟨written, isWritten, isWritable, admits⟩
          · exact .inl same
          · exact .inr (.inl ⟨written, isWritten, isWritable, .inl admits⟩)
  | bind target value =>
      simp only [apply, Store.bind]
      cases writable : checkWritable target with
      | error cause => exact .inl rfl
      | ok _ =>
          dsimp only
          rw [stored?_put]
          split
          · rename_i same
            subst same
            exact .inr (.inl ⟨value, rfl, writable, .inr rfl⟩)
          · exact .inl rfl
  | clear target =>
      simp only [apply, Store.clear]
      split
      · rename_i settable
        exact (removed settable).imp_right .inr
      · exact .inl rfl
  | unset target =>
      simp only [apply, Store.unset]
      cases settable : category target with
      | settable => exact (removed settable).imp_right .inr
      | required => exact .inl rfl
      | internal => exact .inl rfl
      | reserved => exact .inl rfl

theorem WellNamed.apply (named : store.WellNamed) (change : Change) :
    (change.apply store).WellNamed := by
  cases change with
  | set name value =>
      have given := named.set name value
      simp only [Change.apply]
      split
      · rename_i isSet
        rw [isSet] at given
        exact given
      · exact named
  | bind name value =>
      have given := named.bind name value
      simp only [Change.apply]
      split
      · rename_i isBound
        exact gives_of_eq_ok isBound given
      · exact named
  | clear name => exact named.clear name
  | unset name =>
      have given := named.unset name
      simp only [Change.apply]
      split
      · rename_i isUnset
        rw [isUnset] at given
        exact given
      · exact named

theorem WellNamed.afterAll (named : store.WellNamed) (changes : List Change) :
    (store.afterAll changes).WellNamed := by
  induction changes using List.reverseRecOn with
  | nil => exact named
  | append_singleton changes last inductionHypothesis =>
      rw [afterAll_concat]
      exact inductionHypothesis.apply last

/-- No change can write or remove an internal or reserved variable. -/
theorem Change.apply_internal (store : Store) (change : Change) {name : Text}
    (begins : "$_".toList <+: name) : (change.apply store).stored? name = store.stored? name := by
  rcases change.apply_cases store name with same | ⟨_, _, writable, _⟩ | ⟨_, settable⟩
  · exact same
  · unfold checkWritable at writable
    split at writable
    · rcases category_of_underscore begins with internal | internal <;>
        · rw [internal] at writable
          cases writable
    · cases writable
  · rcases category_of_underscore begins with internal | internal <;>
      · rw [internal] at settable
        cases settable

theorem afterAll_internal (store : Store) (changes : List Change) {name : Text}
    (begins : "$_".toList <+: name) : (store.afterAll changes).stored? name = store.stored? name := by
  induction changes using List.reverseRecOn with
  | nil => rfl
  | append_singleton changes last inductionHypothesis =>
      rw [afterAll_concat, last.apply_internal _ begins, inductionHypothesis]

theorem category_of_required {name : Text} (isRequired : name ∈ required) :
    category name = .required :=
  (by decide : ∀ name ∈ required, category name = .required) name isRequired

theorem Change.apply_required (change : Change) {name : Text} (isRequired : name ∈ required)
    (defined : (store.stored? name).isSome = true) :
    ((change.apply store).stored? name).isSome = true := by
  rcases change.apply_cases store name with same | ⟨_, isWritten, _⟩ | ⟨_, settable⟩
  · rw [same]
    exact defined
  · rw [isWritten]
    rfl
  · rw [category_of_required isRequired] at settable
    cases settable

/-- At the start the required variables are defined, and no others. -/
theorem ofDefaults_defined (defaults : Defaults) (name : Text) :
    ((ofDefaults defaults).stored? name).isSome = true ↔ name ∈ required := by
  obtain ⟨entries, names, values⟩ : ∃ entries, entries.map Prod.fst = required ∧
      (ofDefaults defaults).values = .ofList entries := ⟨_, rfl, rfl⟩
  rw [stored?, values, ← names]
  constructor
  · intro defined
    obtain ⟨value, isStored⟩ := Option.isSome_iff_exists.mp defined
    exact List.mem_map_of_mem (Table.mem_of_mem_ofList (Table.mem_of_get? isStored))
  · intro isRequired
    obtain ⟨entry, listed, rfl⟩ := List.mem_map.mp isRequired
    have distinct : (entries.map Prod.fst).Nodup := names ▸ (by decide : required.Nodup)
    rw [Table.get?_ofList distinct listed]
    rfl

/-- After any changes the required variables are defined, the internal and reserved ones are as they
were, and every name is a dollar sign and Latin letters, digits or underscores. -/
theorem afterAll_protected (defaults : Defaults) (changes : List Change) :
    (∀ name ∈ required, (((ofDefaults defaults).afterAll changes).stored? name).isSome = true) ∧
      (∀ name, "$_".toList <+: name →
        ((ofDefaults defaults).afterAll changes).stored? name = none ∧
          ∀ store : Store, (store.afterAll changes).stored? name = store.stored? name) ∧
      ∀ entry ∈ ((ofDefaults defaults).afterAll changes).values,
        ∃ word, entry.1 = '$' :: word ∧ word ≠ [] ∧
          ∀ character ∈ word, character.isAlphanum = true ∨ character = '_' := by
  refine ⟨fun name isRequired => ?_, fun name begins => ⟨?_, fun store => ?_⟩,
    fun entry member => ?_⟩
  · induction changes using List.reverseRecOn with
    | nil => exact (ofDefaults_defined defaults name).mpr isRequired
    | append_singleton changes last inductionHypothesis =>
        rw [afterAll_concat]
        exact last.apply_required isRequired inductionHypothesis
  · rw [afterAll_internal _ changes begins]
    rw [← Option.not_isSome_iff_eq_none, ofDefaults_defined]
    intro isRequired
    rcases category_of_underscore begins with internal | internal <;>
      · rw [category_of_required isRequired] at internal
        cases internal
  · exact afterAll_internal store changes begins
  · have storable := ((ofDefaults_wellNamed defaults).afterAll changes).names entry member
    have named := (Bool.and_eq_true_iff.mp storable).1
    unfold isName at named
    split at named
    · rename_i word isWord
      rw [Bool.and_eq_true, bne_iff_ne, List.all_eq_true] at named
      exact ⟨word, isWord, named.1, fun character isCharacter => by
        simpa [isLatinWord] using named.2 character isCharacter⟩
    · cases named

/-- The changes can fail, and they can ask for names that nobody may write. -/
theorem afterAll_protected_refused :
    (((ofDefaults {}).afterAll [.unset device, .set "$IP" "root:calvin@10.0.0.1",
        .bind "$_COUNT" (.integer 3), .clear verbosity]).stored? device).isSome = true ∧
      ((ofDefaults {}).afterAll [.set "$_UNTIL" "Done", .unset "$_UNTIL"]).stored? "$_UNTIL" = none ∧
      ∃ word : Text, ("$JOB_1" : Text) = '$' :: word ∧ word ≠ [] ∧
        ∀ character ∈ word, character.isAlphanum = true ∨ character = '_' := by
  refine ⟨(afterAll_protected {} _).1 device (by decide),
    ((afterAll_protected {} _).2.1 "$_UNTIL" (by decide)).1, ?_⟩
  have stored : (("$JOB_1" : Text), Value.text "JID_1") ∈
      ((ofDefaults {}).afterAll [.set "$JOB 1" "JID_0", .bind "$JOB_1" (.text "JID_1")]).values := by
    decide
  exact (afterAll_protected {} _).2.2 _ stored

theorem required_of_constrained {name : Text} (member : name ∈ constrained) : name ∈ required :=
  (by decide : ∀ name ∈ constrained, name ∈ required) name member

theorem Change.apply_constrained (store : Store) (change : Change) {name : Text}
    (member : name ∈ constrained) :
    (change.apply store).stored? name = store.stored? name ∨
      ∃ value, (change.apply store).stored? name = some value ∧
        (Admits name value ∨ change = .bind name value) := by
  rcases change.apply_cases store name with same | ⟨value, isWritten, _, source⟩ | ⟨_, settable⟩
  · exact .inl same
  · exact .inr ⟨value, isWritten, source⟩
  · rw [category_of_required (required_of_constrained member)] at settable
    cases settable

theorem ofDefaults_admits {defaults : Defaults} (isDevice : defaults.device ∈ devices)
    (isFormat : defaults.format ∈ formats) :
    ∀ entry ∈ (ofDefaults defaults).values, Admits entry.1 entry.2 := by
  intro entry member
  have listed := Table.mem_of_mem_ofList member
  simp only [List.mem_cons, List.not_mem_nil, or_false] at listed
  rcases listed with rfl | rfl | rfl | rfl | rfl | rfl | rfl | rfl | rfl | rfl | rfl
  · exact ⟨defaults.format, isFormat, rfl⟩
  · trivial
  · trivial
  · trivial
  · exact ⟨wrapped defaults.port, rfl⟩
  · exact ⟨defaults.device, isDevice, rfl⟩
  · exact .inr rfl
  · trivial
  · exact ⟨wrapped defaults.pollInterval, rfl⟩
  · exact ⟨wrapped defaults.pollTimeout, rfl⟩
  · exact ⟨defaults.verbosity, rfl⟩

/-- After any changes the variables with a rule obey it, unless an extraction was bound to them. -/
theorem afterAll_constrained {defaults : Defaults} (isDevice : defaults.device ∈ devices)
    (isFormat : defaults.format ∈ formats) (changes : List Change) :
    ∀ name ∈ constrained, ∃ value,
      ((ofDefaults defaults).afterAll changes).stored? name = some value ∧
        (Admits name value ∨ .bind name value ∈ changes) := by
  intro name member
  induction changes using List.reverseRecOn with
  | nil =>
      have defined := (ofDefaults_defined defaults name).mpr (required_of_constrained member)
      obtain ⟨value, isStored⟩ := Option.isSome_iff_exists.mp defined
      have admits := ofDefaults_admits isDevice isFormat _ (Table.mem_of_get? isStored)
      exact ⟨value, isStored, .inl admits⟩
  | append_singleton changes last inductionHypothesis =>
      rw [afterAll_concat]
      rcases last.apply_constrained ((ofDefaults defaults).afterAll changes) member with
        same | ⟨value, isWritten, source⟩
      · obtain ⟨value, isStored, source⟩ := inductionHypothesis
        exact ⟨value, same.trans isStored, source.imp_right (List.mem_append_left [last])⟩
      · refine ⟨value, isWritten, source.imp_right fun isBind => ?_⟩
        rw [isBind]
        exact List.mem_append_right changes (List.mem_singleton_self _)

/-- A device that is unknown becomes the first one, and a port that is no number becomes one. -/
theorem afterAll_constrained_reverted :
    ({} : Defaults).device ∈ devices ∧ ({} : Defaults).format ∈ formats ∧ device ∈ constrained ∧
      ∃ value, ((ofDefaults {}).afterAll [.set device "switch", .set port "none", .unset device,
          .bind "$JOB" (.list ["JID_1", "JID_2"])]).stored? device = some value ∧
        (Admits device value ∨ .bind device value ∈ [Change.set device "switch",
          .set port "none", .unset device, .bind "$JOB" (.list ["JID_1", "JID_2"])]) :=
  ⟨by decide, by decide, by decide,
    afterAll_constrained (by decide) (by decide) _ device (by decide)⟩

/-- A count that is bound to the device is stored as it is. -/
theorem afterAll_device_not_constrained :
    ({} : Defaults).device ∈ devices ∧ ({} : Defaults).format ∈ formats ∧
      ((ofDefaults {}).afterAll [.bind device (.integer 0)]).stored? device = some (.integer 0) ∧
      ¬Admits device (.integer 0) := by
  refine ⟨by decide, by decide, by decide, ?_⟩
  rintro ⟨text, _, isText⟩
  cases isText

end ManagementShell.Store

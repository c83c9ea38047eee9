import ManagementShell.Proofs.Lookup
import Mathlib.Data.List.Basic

/-
This file shows that nothing is sent for a call of which something is missing: the building of its
request fails before it looks for an endpoint.
-/

namespace ManagementShell

variable {ε σ α β : Type}

def Fails (outcome : Except ε α) : Prop := ∃ cause, outcome = .error cause

@[simp] theorem not_fails_ok (value : α) : ¬Fails (.ok value : Except ε α) := nofun

@[simp] theorem fails_error (cause : ε) : Fails (.error cause : Except ε α) := ⟨cause, rfl⟩

/-- A list is converted as a whole or not at all. -/
theorem fails_mapM_iff {convert : α → Except ε β} {values : List α} :
    Fails (values.mapM convert) ↔ ∃ value ∈ values, Fails (convert value) := by
  induction values with
  | nil => simp [pure, Except.pure]
  | cons first rest inductionHypothesis =>
      rw [List.mapM_cons]
      simp only [List.mem_cons, exists_eq_or_imp, ← inductionHypothesis]
      cases convert first with
      | error cause => simp [bind, Except.bind]
      | ok converted => cases rest.mapM convert <;> simp [bind, Except.bind, pure, Except.pure]

namespace Request

/-- The values that a declared parameter has in the call: the given ones, or those of its
default. -/
def declaredValues (call : Call) (name : Text) (parameter : Parameter) : List Text :=
  match call.arguments.get? name with
  | some given => given
  | none => (parameter.fallback.map ParameterValue.values).getD []

/-- What keeps a declared parameter from having values: it has no default and is not given, or a
value refers to a file that cannot be read. -/
inductive Unresolved (files : FileTree) (call : Call) (name : Text) (parameter : Parameter) : Prop
  | omitted (noDefault : parameter.fallback = none) (notGiven : call.arguments.get? name = none)
  | file (path : Text) (refers : "file:" ++ path ∈ declaredValues call name parameter)
      (unreadable : ∀ text, files.readText path ≠ .ok text)

/-- What can be missing of a call before it is sent. -/
inductive Incomplete (basis : Basis) (call : Call) : Prop
  | method (unknown : basis.catalog.operation? basis.store.deviceText call.method = none)
  | parameter (operation : Operation) (name : Text) (parameter : Parameter)
      (known : basis.catalog.operation? basis.store.deviceText call.method = some operation)
      (declared : (name, parameter) ∈ operation.selectors ++ operation.body)
      (unresolved : Unresolved basis.files call name parameter)
  | host (missing : (basis.store.shown? Variable.host).getD [] = [])

theorem contents_fails_iff {files : FileTree} {parameter value : Text} :
    Fails (contents files parameter value) ↔
      ∃ path, value = "file:" ++ path ∧ ∀ text, files.readText path ≠ .ok text := by
  unfold contents
  split
  · rename_i noPath
    simp only [not_fails_ok, false_iff, not_exists, not_and]
    intro path refers
    have isPath : value.after? "file:" = some path :=
      List.isPrefixOf?_eq_some_iff_append_eq.mpr refers.symm
    cases noPath.symm.trans isPath
  · rename_i path isPath
    obtain rfl : "file:" ++ path = value := List.isPrefixOf?_eq_some_iff_append_eq.mp isPath
    simp only [List.append_cancel_left_eq, exists_eq_left']
    cases files.readText path <;> simp

section

variable {call : Call} {name : Text} {parameter : Parameter}

/-- The values of a parameter are the declared ones, and none if these are all empty. -/
theorem values?_declared : Gives (values? call name parameter)
    (fun found => ¬(parameter.fallback = none ∧ call.arguments.get? name = none) ∧
      (∀ values ∈ found, values = declaredValues call name parameter) ∧
      (found = none → ∀ value ∈ declaredValues call name parameter, value = []))
    fun _ => parameter.fallback = none ∧ call.arguments.get? name = none := by
  unfold values? declaredValues
  split
  · rename_i isGiven
    simp [isGiven]
  · rename_i notGiven noDefault
    exact ⟨noDefault, notGiven⟩
  · rename_i fallback notGiven isFallback
    split
    · rename_i allEmpty
      simpa [notGiven, isFallback] using allEmpty
    · simp [notGiven, isFallback]

theorem unresolved_iff {files : FileTree} : Unresolved files call name parameter ↔
    (parameter.fallback = none ∧ call.arguments.get? name = none) ∨
      ∃ value ∈ declaredValues call name parameter, Fails (contents files name value) := by
  simp only [contents_fails_iff]
  constructor
  · rintro (⟨noDefault, notGiven⟩ | ⟨path, refers, unreadable⟩)
    · exact .inl ⟨noDefault, notGiven⟩
    · exact .inr ⟨_, refers, path, rfl, unreadable⟩
  · rintro (⟨noDefault, notGiven⟩ | ⟨_, refers, path, rfl, unreadable⟩)
    · exact .omitted noDefault notGiven
    · exact .file path refers unreadable

end

/-- The induction is on the declared parameters. -/
theorem resolve_fails_iff {files : FileTree} {call : Call} {declared : Table Parameter} :
    Fails (resolve files call declared) ↔
      ∃ entry ∈ declared, Unresolved files call entry.1 entry.2 := by
  induction declared with
  | nil => simp [resolve]
  | cons entry rest inductionHypothesis =>
      obtain ⟨name, parameter⟩ := entry
      simp only [List.mem_cons, exists_eq_or_imp]
      rw [← inductionHypothesis, unresolved_iff]
      have found := @values?_declared call name parameter
      rw [resolve]
      split
      · rename_i failure failed
        rw [failed] at found
        simp [found.1, found.2]
      · rename_i noValues
        rw [noValues] at found
        obtain ⟨isResolved, _, allEmpty⟩ := found
        have reads : ∀ value ∈ declaredValues call name parameter,
            ¬Fails (contents files name value) := by
          intro value isValue
          rw [allEmpty rfl value isValue]
          exact not_fails_ok _
        have resolves : ¬∃ value ∈ declaredValues call name parameter,
            Fails (contents files name value) := fun failing =>
          failing.elim fun value fails => reads value fails.1 fails.2
        rw [or_iff_right isResolved, or_iff_right resolves]
      · rename_i values isValues
        rw [isValues] at found
        obtain ⟨isResolved, isDeclared, _⟩ := found
        rw [← isDeclared values rfl, ← fails_mapM_iff, or_iff_right isResolved]
        cases values.mapM (contents files name) <;> cases resolve files call rest <;> simp

/-- Of a call whose method is known, a parameter or the host can be missing. -/
theorem incomplete_iff_of_known {basis : Basis} {call : Call} {operation : Operation}
    (known : basis.catalog.operation? basis.store.deviceText call.method = some operation) :
    Incomplete basis call ↔ Fails (resolve basis.files call operation.selectors) ∨
      Fails (resolve basis.files call operation.body) ∨
        (basis.store.shown? Variable.host).getD [] = [] := by
  simp only [resolve_fails_iff]
  constructor
  · rintro (unknown | ⟨other, name, parameter, isOther, declared, unresolved⟩ | missing)
    · cases unknown.symm.trans known
    · cases isOther.symm.trans known
      rcases List.mem_append.mp declared with selector | body
      · exact .inl ⟨_, selector, unresolved⟩
      · exact .inr (.inl ⟨_, body, unresolved⟩)
    · exact .inr (.inr missing)
  · rintro (⟨entry, selector, unresolved⟩ | ⟨entry, body, unresolved⟩ | missing)
    · exact .parameter _ _ _ known (List.mem_append_left _ selector) unresolved
    · exact .parameter _ _ _ known (List.mem_append_right _ body) unresolved
    · exact .host missing

/-- The preparation of a call fails exactly when something is missing of it. -/
theorem prepare_fails_iff {basis : Basis} {call : Call} :
    Fails (prepare basis call) ↔ Incomplete basis call := by
  unfold prepare
  split
  · rename_i unknown
    simpa using Incomplete.method unknown
  · rename_i operation known
    rw [incomplete_iff_of_known known]
    cases resolve basis.files call operation.selectors with
    | error failure => simp
    | ok selectors => cases resolve basis.files call operation.body with
      | error failure => simp
      | ok body =>
          simp only [not_fails_ok, false_or]
          split
          · rename_i isHost
            simp [isHost]
          · rename_i noHost
            rcases isHost : basis.store.shown? Variable.host with _ | _ | ⟨first, rest⟩
            · simp
            · simp
            · exact (noHost first rest isHost).elim

end Request

namespace Connection

/-- Nothing is sent for a call that is incomplete: the building of its request fails, and whatever
the target and the parameters refer to, neither the peer nor the files nor the cache nor the events
have changed then. -/
theorem build_incomplete (peer : Peer σ) {basis : Request.Basis} {call : Call}
    (incomplete : Request.Incomplete basis call) (connection : Connection σ) :
    ∃ failure, build peer basis call connection = .error failure connection := by
  obtain ⟨failure, fails⟩ := Request.prepare_fails_iff.mpr incomplete
  refine ⟨failure, ?_⟩
  rw [build, Request.build, fails]
  rfl

/-- The target and a parameter of this operation are endpoints, and another parameter must be
given. -/
def attach : Operation where
  verb := .invoke
  target := "EPR:Service"
  body := [("Image", {}), ("Service", { fallback := some (.text "EPR:Service") })]

def attaching : Request.Basis where
  catalog := Catalog.initial.add "idrac" "Attach" attach
  store := (Store.ofDefaults {}).put Variable.host (.text "h")
  client := {}
  files := ⟨[], []⟩

/-- A call that would look up two endpoints if it were complete looks up none. -/
theorem build_incomplete_endpoints :
    let call := Call.ofMethod "Attach"
    let connection : Connection (List (Except Text Text)) := ⟨[.ok "<a/>"], ⟨[], []⟩, [], []⟩
    (Request.lookups attaching (call.add "Image" "i")).length = 2 ∧
      Request.Incomplete attaching call ∧
      ∃ failure, build .inTurn attaching call connection = .error failure connection := by
  intro call connection
  have known : attaching.catalog.operation? attaching.store.deviceText call.method =
      some attach := by decide
  have incomplete : Request.Incomplete attaching call :=
    .parameter attach "Image" {} known (List.mem_append_right _ List.mem_cons_self)
      (.omitted rfl rfl)
  exact ⟨by decide, incomplete, build_incomplete .inTurn incomplete connection⟩

end Connection

end ManagementShell

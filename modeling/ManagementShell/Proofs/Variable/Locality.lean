import ManagementShell.Proofs.Outcome
import ManagementShell.Proofs.Table
import ManagementShell.Session.Run

/-
This file shows which variables differ after one of them has been set, bound or unset, and that
nothing differs after a failure.
-/

namespace ManagementShell

namespace Store
open Text Variable

/-- The stores differ in variables with these names only. -/
structure AgreesOutside (names : List Text) (before after : Store) : Prop where
  stored? : ∀ name, name ∉ names → after.stored? name = before.stored? name
  defaults : after.defaults = before.defaults

/-- The variables that change together with a variable. A host string has a login, which is the
default one if it has no user, and a password if it has credentials in full; a password that is asked
for at a terminal is set by itself. -/
def companions (name value : Text) : List Text :=
  if name = host then
    match Host.parse? value with
    | some spec => match spec.credentials with
      | .absent | .user _ => [login]
      | .full _ _ => [login, password]
    | none => []
  else if name = program ∧ value = "True" then [verbosity, format]
  else []

variable {names : List Text} {before after store : Store}

theorem AgreesOutside.refl (names : List Text) (store : Store) : AgreesOutside names store store :=
  ⟨fun _ _ => rfl, rfl⟩

theorem AgreesOutside.put (agrees : AgreesOutside names before after) {name : Text}
    (member : name ∈ names) (value : Value) : AgreesOutside names before (after.put name value) where
  stored? other outside := by
    have differs : other ≠ name := fun same => outside (same ▸ member)
    rw [stored?_put, if_neg differs, agrees.stored? other outside]
  defaults := agrees.defaults

theorem AgreesOutside.remove (agrees : AgreesOutside names before after) {name : Text}
    (member : name ∈ names) : AgreesOutside names before (after.remove name) where
  stored? other outside := by
    have differs : other ≠ name := fun same => outside (same ▸ member)
    rw [stored?_remove, if_neg differs, agrees.stored? other outside]
  defaults := agrees.defaults

theorem setHost_of_malformed {value : Text} (malformed : Host.parse? value = none) :
    (store.setHost value).1 = store := by
  rw [setHost, malformed]

theorem setHost_agrees (store : Store) (value : Text) :
    AgreesOutside (host :: companions host value) store (store.setHost value).1 := by
  have begun (names : List Text) := AgreesOutside.refl names store
  unfold setHost companions
  rw [if_pos rfl]
  cases Host.parse? value with
  | none => exact begun _
  | some spec =>
      dsimp only
      cases spec.credentials with
      | absent => exact ((begun _).put (by simp) _).put (by simp) _
      | user user => exact ((begun _).put (by simp) _).put (by simp) _
      | full user word => exact (((begun _).put (by simp) _).put (by simp) _).put (by simp) _

theorem assign_agrees (store : Store) (name value : Text) :
    AgreesOutside (name :: companions name value) store (store.assign name value).1 := by
  have begun := AgreesOutside.refl (name :: companions name value) store
  have itself (written : Value) := begun.put List.mem_cons_self written
  unfold assign
  split
  · rename_i isHost
    rw [isHost]
    exact setHost_agrees store value
  split
  · split <;> exact itself _
  split
  · split <;> exact itself _
  split
  · rename_i notHost _ _ isProgram
    rw [← isProgram]
    split
    · rename_i isTrue
      have areCompanions : companions name value = [verbosity, format] := by
        rw [companions, if_neg notHost, if_pos ⟨isProgram, isTrue⟩]
      exact ((itself _).put (by simp [areCompanions]) _).put (by simp [areCompanions]) _
    · split <;> exact itself _
  split
  · split <;> exact itself _
  · exact itself _

end Store

namespace Session
open Store Variable

/-- Setting a variable changes this variable and its companions only, and a malformed host string
changes none; a variable that is bound or unset changes alone. Where one of the three fails, the
session is as it was. -/
theorem set_local {σ : Type} (session : Session σ) (name value : Text) (result : Value) :
    Gives (session.store.set name value)
        (fun changed =>
          AgreesOutside (name :: companions name value) session.store changed.1 ∧
            (name = host → Host.parse? value = none → changed.1 = session.store))
        (fun failure => assign name value session = .error (.failed failure) session) ∧
      Gives (session.store.bind name result) (AgreesOutside [name] session.store)
        (fun failure => bind name result session = .error (.failed failure) session) ∧
      Gives (session.store.unset name) (fun changed => AgreesOutside [name] session.store changed.2)
        (fun failure => unset name session = .error (.failed failure) session) := by
  have failing {α β : Type} {outcome : Except Failure α} {failure : Failure}
      (failed : outcome = .error failure) (next : α → Action σ β) :
      (do next (← check outcome)) session = .error (.failed failure) session := by
    rw [failed]
    rfl
  refine ⟨?_, ?_, ?_⟩
  · cases isSet : session.store.set name value with
    | error failure => exact failing isSet _
    | ok changed =>
        unfold Store.set at isSet
        split at isSet
        · cases isSet
        · cases isSet
          refine ⟨assign_agrees session.store name value, fun isHost malformed => ?_⟩
          rw [isHost, Store.assign, if_pos rfl, setHost_of_malformed malformed]
  · cases isBound : session.store.bind name result with
    | error failure => exact failing isBound _
    | ok changed =>
        unfold Store.bind at isBound
        split at isBound
        · cases isBound
        · cases isBound
          exact (AgreesOutside.refl _ _).put (List.mem_singleton_self name) result
  · cases isUnset : session.store.unset name with
    | error failure => exact failing isUnset _
    | ok changed =>
        unfold Store.unset at isUnset
        split at isUnset
        · cases isUnset
        · cases isUnset
        · cases isUnset
        · cases isUnset
          exact (AgreesOutside.refl _ _).remove (List.mem_singleton_self name)

end Session

end ManagementShell

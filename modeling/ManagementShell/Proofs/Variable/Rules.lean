import ManagementShell.Proofs.Table

/-
This file states the rules of the constrained variables, and shows that setting a variable writes
only what they admit.
-/

namespace ManagementShell.Store
open Text Variable

/-- The value obeys the rule of the variable, if there is one. -/
def Admits (name : Text) (value : Value) : Prop :=
  if name = device then ∃ text ∈ devices, value = .text text
  else if name = format then ∃ text ∈ formats, value = .text text
  else if name = program then value = .text "True" ∨ value = .text "False"
  else if name ∈ numeric then ∃ number, value = .integer number
  else True

/-- The later store comes from writing variables that can be written, each with a value that obeys
its rule. -/
inductive Writes (before : Store) : Store → Prop
  | none : Writes before before
  | put {store : Store} {name : Text} {value : Value} (earlier : Writes before store)
      (writable : checkWritable name = .ok ()) (admits : Admits name value) :
      Writes before (store.put name value)

variable {before after store : Store}

theorem Writes.stored?_cases (writes : before.Writes after) (name : Text) :
    after.stored? name = before.stored? name ∨
      ∃ value, after.stored? name = some value ∧ checkWritable name = .ok () ∧ Admits name value := by
  induction writes with
  | none => exact .inl rfl
  | @put store written value _ writable admits inductionHypothesis =>
      rw [stored?_put]
      split
      · rename_i same
        exact .inr ⟨value, rfl, same ▸ writable, same ▸ admits⟩
      · exact inductionHypothesis

/-- A host string sets variables without rules. -/
theorem setHost_writes (store : Store) (value : Text) : store.Writes (store.setHost value).1 := by
  have put {changed : Store} (writes : store.Writes changed) {name : Text}
      (member : name ∈ [login, password, host]) (text : Text) :
      store.Writes (changed.put name (.text text)) := by
    have all : ∀ name ∈ [login, password, host], checkWritable name = .ok () ∧ name ≠ device ∧
        name ≠ format ∧ name ≠ program ∧ name ∉ numeric := by decide
    obtain ⟨writable, notDevice, notFormat, notProgram, notNumeric⟩ := all name member
    refine writes.put writable ?_
    rw [Admits, if_neg notDevice, if_neg notFormat, if_neg notProgram, if_neg notNumeric]
    trivial
  have isLogin : login ∈ [login, password, host] := by decide
  have isPassword : password ∈ [login, password, host] := by decide
  have isHost : host ∈ [login, password, host] := by decide
  unfold setHost
  split
  · exact .none
  · dsimp only
    split
    · exact put (put .none isLogin _) isHost _
    · exact put (put .none isLogin _) isHost _
    · exact put (put (put .none isLogin _) isPassword _) isHost _

theorem assign_writes {name : Text} (writable : checkWritable name = .ok ()) (value : Text) :
    store.Writes (store.assign name value).1 := by
  have isProgram : checkWritable program = .ok () := by decide
  have isVerbosity : checkWritable verbosity = .ok () := by decide
  have isFormat : checkWritable format = .ok () := by decide
  have flag {text : Text} (isFlag : text = "True" ∨ text = "False") :
      Admits program (.text text) := by
    rcases isFlag with rfl | rfl
    · exact .inl rfl
    · exact .inr rfl
  have begun : store.Writes store := .none
  unfold assign
  split
  · exact setHost_writes store value
  rename_i notHost
  split
  · rename_i isDevice
    rw [isDevice] at writable ⊢
    split
    · rename_i isKnown
      exact begun.put writable ⟨value, by simpa using isKnown, rfl⟩
    · exact begun.put writable ⟨"idrac", by decide, rfl⟩
  rename_i notDevice
  split
  · rename_i isFormat
    rw [isFormat] at writable ⊢
    split
    · rename_i isKnown
      exact begun.put writable ⟨value, by simpa using isKnown, rfl⟩
    · exact begun.put writable ⟨"normal", by decide, rfl⟩
  rename_i notFormat
  split
  · split
    · exact ((begun.put isProgram (flag (.inl rfl))).put isVerbosity ⟨callLevel, rfl⟩).put
        isFormat ⟨"xml", by decide, rfl⟩
    · split <;> exact begun.put isProgram (flag (.inr rfl))
  rename_i notProgram
  split
  · rename_i isNumeric
    have number (number : Int) : Admits name (.integer number) := by
      rw [Admits, if_neg notDevice, if_neg notFormat, if_neg notProgram,
        if_pos (by simpa using isNumeric)]
      exact ⟨number, rfl⟩
    split <;> exact begun.put writable (number _)
  · rename_i notNumeric
    refine begun.put writable ?_
    rw [Admits, if_neg notDevice, if_neg notFormat, if_neg notProgram,
      if_neg (by simpa using notNumeric)]
    trivial

end ManagementShell.Store

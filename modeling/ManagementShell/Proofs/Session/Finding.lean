import ManagementShell.Proofs.Extraction.Limit
import ManagementShell.Proofs.Lookup
import ManagementShell.Proofs.Session.Run
import ManagementShell.Proofs.Table

/-
This file shows what a find leaves in its target variable: the text of the node that it has found, or
nothing at all.
-/

namespace ManagementShell
open Text

theorem Variable.ne_date {name : Text} (settable : category name = .settable) : name ≠ date := by
  rintro rfl
  revert settable
  decide

namespace Store

variable {store : Store} {name : Text} (settable : Variable.category name = .settable)
include settable

theorem get?_eq_stored? (now : Text) : store.get? now name = store.stored? name :=
  if_neg (Variable.ne_date settable)

theorem get?_clear (now : Text) : (store.clear name).get? now name = none := by
  rw [get?_eq_stored? settable, clear, if_pos settable, stored?_remove, if_pos rfl]

/-- A value is bound, or the name is refused. -/
theorem bind_gives_get? (value : Value) (now : Text) :
    Gives (store.bind name value) (fun after => after.get? now name = some value) fun _ => True := by
  unfold bind
  split
  · trivial
  · rw [gives_ok, get?_eq_stored? settable, stored?_put, if_pos rfl]

end Store

namespace Query

theorem mem_of_select {query : Query} {occurrences : List Match} {found : Match}
    (isSelected : query.select occurrences = some found) : found ∈ occurrences := by
  unfold select at isSelected
  split at isSelected
  · cases isSelected
  · exact List.mem_of_getElem? (Option.filter_eq_some_iff.mp isSelected).1
  · exact List.mem_of_head? isSelected
  · exact List.mem_of_find?_eq_some isSelected

end Query

namespace Session

variable {σ : Type} {session : Session σ}

/-- What a find looks for and finds in the last response. -/
def found? (session : Session σ) (look : Text) (position : Option Nat) : Option Match :=
  (Query.parse? look position).bind fun query => session.scope?.bind query.find?

/-- The position that a find is given, after substitution; there is none without a positive
number. -/
def number? (session : Session σ) (setting : Setting σ) : Option Text → Option (Option Nat)
  | none => some none
  | some text => (position? (session.store.expand (session.date setting.clock) text)).map some

/-- The match is a node of the last response with this text. -/
def HasText (session : Session σ) (found : Match) : Prop :=
  ∃ root ∈ session.response.tree, ∃ node ∈ root.nodes[found.node]?, node.text = some found.value

theorem scope?_isPlace {place : Element.Place} (isScope : session.scope? = some place) :
    ∃ root ∈ session.response.tree, ∃ number, root.place? number = some place := by
  unfold scope? at isScope
  split at isScope
  · cases isScope
  · rename_i root isTree _
    cases isScope
    refine ⟨root, isTree, 0, ?_⟩
    obtain ⟨tag, text, children⟩ := root
    rfl
  · rename_i root number isTree _
    exact ⟨root, isTree, number, isScope⟩

theorem found?_hasText {look : Text} {position : Option Nat} {found : Match}
    (isFound : session.found? look position = some found) : session.HasText found := by
  obtain ⟨query, -, isMatch⟩ := Option.bind_eq_some_iff.mp isFound
  obtain ⟨place, isScope, isMatch⟩ := Option.bind_eq_some_iff.mp isMatch
  obtain ⟨root, isTree, number, isPlace⟩ := scope?_isPlace isScope
  rw [Query.find?_eq_select] at isMatch
  have lists := Extraction.findAll_lists isPlace query.field
  obtain ⟨-, node, isNode, -, isText, -⟩ := (lists.members found).mp (Query.mem_of_select isMatch)
  exact ⟨root, isTree, node, isNode, isText⟩

section

variable {name : Text} (settable : Variable.category name = .settable) (look now : Text)
include settable

/-- The target is cleared before anything can fail, and bound last. -/
theorem findQuery_target (position : Option Nat) :
    Ends (findQuery look (some name) position) session
      (fun found after => found = session.found? look position ∧
        after.store.get? now name = found.map fun found => .text found.value)
      (fun _ after => after.store.get? now name = none) := by
  have cleared : (session.store.clear name).get? now name = none := Store.get?_clear settable now
  unfold findQuery found?
  simp only [ends_bind, clearTarget, clear, ends_modify]
  cases Query.parse? look position with
  | none => exact cleared
  | some query =>
      simp only [ends_bind, ends_get, Option.bind_some]
      rw [show ({ session with store := session.store.clear name } : Session σ).scope? =
        session.scope? from rfl]
      cases session.scope? with
      | none => exact ⟨rfl, cleared⟩
      | some place =>
          simp only [Option.bind_some]
          cases query.find? place with
          | none => exact ⟨rfl, cleared⟩
          | some found =>
              have bound := @Store.bind_gives_get? (session.store.clear name) name settable
                (.text found.value) now
              simp only [ends_bind, bind, ends_get]
              cases isBound : (session.store.clear name).bind name (.text found.value) with
              | error cause => exact cleared
              | ok store =>
                  rw [isBound] at bound
                  exact ⟨rfl, bound⟩

/-- A find that does not succeed leaves its target undefined, also one that ends with a failure. One
that succeeds leaves it as the text of the node that it has found. A position has to be a positive
number for this. -/
theorem execute_find_target (setting : Setting σ) (calls : Nat) (runFrame : Frame → Action σ Bool)
    {position : Option Text} {number : Option Nat}
    (isNumber : session.number? setting position = some number) :
    Ends (execute setting calls runFrame (.find look (some name) position)) session
      (fun succeeds after => if succeeds then
          ∃ found, session.found? (session.store.expand (session.date setting.clock) look) number =
            some found ∧ session.HasText found ∧
              after.store.get? now name = some (.text found.value)
        else after.store.get? now name = none)
      (fun _ after => after.store.get? now name = none) := by
  generalize isLook : session.store.expand (session.date setting.clock) look = expanded
  have expands : expand setting look session = .ok expanded session := by rw [← isLook]; rfl
  have finds : find setting look (some name) position session =
      findQuery expanded (some name) number session := by
    rw [find, bind_of_eq_ok expands]
    cases position with
    | none =>
        cases isNumber
        rfl
    | some text =>
        obtain ⟨positive, isPosition, rfl⟩ := Option.map_eq_some_iff.mp isNumber
        have expandsToo : expand setting text session =
            .ok (session.store.expand (session.date setting.clock) text) session := rfl
        simp only
        rw [bind_of_eq_ok expandsToo, isPosition]
  have target := @findQuery_target _ session name settable expanded now number
  rw [execute, ends_bind, Ends, finds]
  refine target.weaken (fun found after => ?_) fun _ _ => id
  rintro ⟨isFound, isLeft⟩
  cases found with
  | none => exact isLeft
  | some found => exact ⟨found, isFound.symm, found?_hasText isFound.symm, isLeft⟩

end

/-- The response has two occurrences of a field, and the target of a find has a value already. -/
def holding : Session (List (Except Text Text)) :=
  { start {} [] ⟨[], []⟩ with
    store := (Store.ofDefaults {}).put "$v" (.text "old")
    response := .ofOutput "<a><FQDD>one</FQDD><FQDD>two</FQDD></a>" }

theorem execute_find_target_missing :
    holding.store.get? [] "$v" = some (.text "old") ∧
      ∃ after, execute .plain 0 (runFrame .plain 0) (.find "FQDD" (some "$v") (some "3")) holding =
        .ok false after ∧ after.store.get? [] "$v" = none := by
  have fails : outcome (execute .plain 0 (runFrame .plain 0)
      (.find "FQDD" (some "$v") (some "3")) holding) = .ok false := by decide +kernel
  have ran := eq_ok_of_outcome fails
  have settable : Variable.category "$v" = .settable := by decide
  have isNumber : holding.number? .plain (some "3") = some (some 3) := by decide +kernel
  have left := ends_of_eq_ok ran
    (execute_find_target settable "FQDD" [] .plain 0 (runFrame .plain 0) isNumber)
  exact ⟨by decide +kernel, _, ran, left⟩

/-- A find whose position is no positive number does not succeed either, but it ends before the
target is cleared. -/
theorem execute_find_stale :
    ∃ after, execute .plain 0 (runFrame .plain 0) (.find "FQDD" (some "$v") (some "0")) holding =
      .ok false after ∧ after.store.get? [] "$v" = some (.text "old") := by
  have fails : outcome (execute .plain 0 (runFrame .plain 0)
      (.find "FQDD" (some "$v") (some "0")) holding) = .ok false := by decide +kernel
  exact ⟨_, eq_ok_of_outcome fails, by decide +kernel⟩

end Session

end ManagementShell

import ManagementShell.Proofs.Session.Run

/-
This file shows that the gosubs and returns inside a script are bracketed like parentheses.
-/

namespace ManagementShell

variable {σ : Type}

/-- What has to hold of the steps of a frame that ends with the outcome. There is no outcome if the
frame did not come to its end. -/
structure Bracketed (outcome : Option Bool) (passed : List Step) : Prop where
  /-- After a line whose first jump is a gosub, and the return that belongs to it, the next line is
  the one below, or the frame is over because there is none. -/
  gosub : ∀ early call inside late,
    passed = early ++ .line call :: .move .gosub :: (inside ++ .move .leave :: late) →
      Balanced inside →
      (call.cursor + 1 < call.lines.length ∧
        ∃ rest, late = .line { call with cursor := call.cursor + 1 } :: rest) ∨
      (late = [] ∧ ∀ result ∈ outcome, result = true ∧ call.lines.length ≤ call.cursor + 1)
  /-- Another script takes over without pending returns. -/
  replace : ∀ early next rest, passed = early ++ .move .replace :: .line next :: rest →
    next.returns = []
  /-- A return that belongs to no gosub since another script took over is the end of the frame. -/
  finish : ∀ early inside late,
    passed = early ++ .move .replace :: (inside ++ .move .leave :: late) → Balanced inside →
      late = [] ∧ ∀ result ∈ outcome, result = true

theorem Frame.SamePlace.eq {first last : Frame} (same : first.SamePlace last) :
    last = { first with cursor := last.cursor } := by
  cases first
  cases last
  cases same
  simp_all

/-- What follows a return begins with a line, the line at the cursor that it went back to. -/
theorem line_of_return {early late : List Step} {frame last : Frame}
    (chain : (early ++ .move .leave :: late).IsChain Session.ReturnsToLine)
    (goes : frame.Goes late last) :
    late = [] ∨ frame.cursor < frame.lines.length ∧ ∃ rest, late = .line frame :: rest := by
  cases late with
  | nil => exact .inl rfl
  | cons step rest =>
      rw [List.isChain_append_cons_cons] at chain
      obtain ⟨next, rfl⟩ := chain.2.1 rfl
      cases goes with
      | line within _ => exact .inr ⟨within, rest, rfl⟩

namespace Session

variable {frame : Frame} {outcome : Option Bool} {passed : List Step} {before after : Session σ}

/-- The frame at the gosub is the frame after the return, one line further. -/
theorem Ran.gosub (ran : Ran frame outcome passed before after) {early inside late : List Step}
    {call : Frame}
    (shape : passed = early ++ .line call :: .move .gosub :: (inside ++ .move .leave :: late))
    (balanced : Balanced inside) :
    (call.cursor + 1 < call.lines.length ∧
      ∃ rest, late = .line { call with cursor := call.cursor + 1 } :: rest) ∨
    (late = [] ∧ ∀ result ∈ outcome, result = true ∧ call.lines.length ≤ call.cursor + 1) := by
  obtain ⟨last, goes, concludes⟩ := ran.goes
  have chain := ran.returns
  subst shape
  obtain ⟨middle, _, goesOn⟩ := goes.split
  cases goesOn with
  | line _ next =>
      have regroup : (.move .gosub :: (inside ++ .move .leave :: late) : List Step) =
          (.move .gosub :: (inside ++ [.move .leave])) ++ late := by simp
      rw [regroup] at next
      obtain ⟨back, bracket, later⟩ := next.split
      obtain ⟨same, cursor⟩ := balanced.returns bracket
      have place := same.eq
      rw [cursor] at place
      subst place
      have flat : early ++ .line call :: .move .gosub :: (inside ++ .move .leave :: late) =
          (early ++ .line call :: .move .gosub :: inside) ++ .move .leave :: late := by simp
      rw [flat] at chain
      rcases line_of_return chain later with rfl | begins
      · refine .inr ⟨rfl, fun result isResult => ?_⟩
        cases later
        exact concludes (by rw [flat, List.getLast?_concat]) result isResult
      · exact .inl begins

theorem Ran.replace (ran : Ran frame outcome passed before after) {early rest : List Step}
    {next : Frame} (shape : passed = early ++ .move .replace :: .line next :: rest) :
    next.returns = [] := by
  obtain ⟨last, goes, _⟩ := ran.goes
  subst shape
  obtain ⟨middle, _, goesOn⟩ := goes.split
  cases goesOn with
  | replace other fresh goesFrom =>
      cases goesFrom with
      | line _ _ => exact fresh

theorem Ran.finish (ran : Ran frame outcome passed before after) {early inside late : List Step}
    (shape : passed = early ++ .move .replace :: (inside ++ .move .leave :: late))
    (balanced : Balanced inside) : late = [] ∧ ∀ result ∈ outcome, result = true := by
  obtain ⟨last, goes, concludes⟩ := ran.goes
  have chain := ran.returns
  subst shape
  obtain ⟨middle, _, goesOn⟩ := goes.split
  cases goesOn with
  | replace other fresh goesFrom =>
      have regroup : inside ++ .move .leave :: late = (inside ++ [.move .leave]) ++ late := by simp
      rw [regroup] at goesFrom
      obtain ⟨ended, bracket, later⟩ := goesFrom.split
      have atEnd := balanced.finishes fresh bracket
      have flat : early ++ .move .replace :: (inside ++ .move .leave :: late) =
          (early ++ .move .replace :: inside) ++ .move .leave :: late := by simp
      rw [flat] at chain
      rcases line_of_return chain later with rfl | ⟨within, _⟩
      · refine ⟨rfl, fun result isResult => ?_⟩
        exact (concludes (by rw [flat, List.getLast?_concat]) result isResult).1
      · omega

/-- The steps of the frame above those of the state before, in the events since then. -/
def passedAbove (before after : Session σ) : List Step :=
  steps (before.frames.length + 1)
    (after.connection.events.drop before.connection.events.length)

theorem Ran.bracketed (ran : Ran frame outcome passed before after) :
    Bracketed outcome (passedAbove before after) := by
  obtain ⟨added, grows, noted, _⟩ := ran.events
  have same : passedAbove before after = passed := by
    rw [passedAbove, grows, List.drop_left, noted]
  rw [same]
  exact ⟨fun _ _ _ _ => ran.gosub, fun _ _ _ => ran.replace, fun _ _ _ => ran.finish⟩

/-- However a frame runs, the gosubs and returns inside its script are bracketed. -/
theorem runFrame_bracketed (setting : Setting σ) (bound : Nat) (frame : Frame)
    (before : Session σ) :
    Ends (runFrame setting bound frame) before
      (fun outcome after => Bracketed (some outcome) (passedAbove before after))
      (fun halt after => halt = .exhausted ∧ Bracketed none (passedAbove before after)) :=
  (runFrame_ran setting bound frame before).weaken (fun _ _ ⟨_, ran⟩ => ran.bracketed)
    (fun _ _ ⟨exhausted, _, ran⟩ => ⟨exhausted, ran.bracketed⟩)

/-- The steps of a frame that runs first in a session. -/
def passedFirst (setting : Setting (List (Except Text Text))) (bound : Nat) (frame : Frame) :
    List Step :=
  match runFrame setting bound frame (start {} [] ⟨[], []⟩) with
  | .ok _ after | .error _ after => passedAbove (start {} [] ⟨[], []⟩) after

/-- This script runs its last two lines before its second one. -/
def subroutine : Frame := .ofSource "main" "Gosub Sub\nQuit\n:Sub\nReturn\n" false

theorem runFrame_bracketed_subroutine :
    ∃ rest, passedFirst .plain 10 subroutine =
      .line subroutine :: .move .gosub ::
        ([.line { subroutine with cursor := 2, returns := [1] },
          .line { subroutine with cursor := 3, returns := [1] }] ++
        .move .leave :: .line { subroutine with cursor := 1 } :: rest) := by
  have bracketed (bound : Nat) (frame : Frame) :
      ∃ outcome, Bracketed outcome (passedFirst .plain bound frame) := by
    have ended := runFrame_bracketed .plain bound frame (start {} [] ⟨[], []⟩)
    unfold Ends at ended
    unfold passedFirst
    cases ran : runFrame .plain bound frame (start {} [] ⟨[], []⟩) with
    | ok outcome after =>
        rw [ran] at ended
        exact ⟨_, ended⟩
    | error halt after =>
        rw [ran] at ended
        exact ⟨_, ended.2⟩
  obtain ⟨late, shape, goesOn⟩ : ∃ late, passedFirst .plain 10 subroutine =
      [] ++ .line subroutine :: .move .gosub ::
        ([.line { subroutine with cursor := 2, returns := [1] },
          .line { subroutine with cursor := 3, returns := [1] }] ++
        .move .leave :: late) ∧ late ≠ [] :=
    ⟨(passedFirst .plain 10 subroutine).drop 5, by decide +kernel, by decide +kernel⟩
  obtain ⟨outcome, bracketed⟩ := bracketed 10 subroutine
  have balanced : Balanced [.line { subroutine with cursor := 2, returns := [1] },
      .line { subroutine with cursor := 3, returns := [1] }] := .line _ (.line _ .nil)
  rcases bracketed.gosub _ _ _ _ shape balanced with ⟨_, rest, rfl⟩ | ⟨none, _⟩
  · exact ⟨rest, shape⟩
  · exact absurd none goesOn

end Session

end ManagementShell

import ManagementShell.Proofs.Session.Still

/-
This file follows one frame through the events of a run: the lines that it begins and its moves.
-/

namespace ManagementShell

variable {σ : Type}

/-- What happens to the frame at a depth. -/
inductive Step where
  | line (frame : Frame)
  | move (move : Move)
  deriving DecidableEq, Repr

/-- The step of the frame at the depth that the event notes. -/
def Event.step? (depth : Nat) : Event → Option Step
  | .line place frame => if place = depth then some (.line frame) else none
  | .moved place move => if place = depth then some (.move move) else none
  | _ => none

def steps (depth : Nat) (events : List Event) : List Step := events.filterMap (Event.step? depth)

theorem steps_append (depth : Nat) (first second : List Event) :
    steps depth (first ++ second) = steps depth first ++ steps depth second :=
  List.filterMap_append

theorem Event.step?_eq_none {event : Event} {depth : Nat}
    (elsewhere : event.depth? ≠ some depth) : event.step? depth = none := by
  cases event with
  | line place frame => simpa [Event.step?, Event.depth?] using elsewhere
  | moved place move => simpa [Event.step?, Event.depth?] using elsewhere
  | _ => rfl

theorem steps_eq_nil {events : List Event} {depth : Nat}
    (elsewhere : ∀ event ∈ events, event.depth? ≠ some depth) : steps depth events = [] := by
  rw [steps, List.filterMap_eq_nil_iff]
  intro event member
  exact Event.step?_eq_none (elsewhere event member)

namespace Frame

/-- The steps lead from the first frame to the second. A goto may lead to any line; a return leads
to where the last gosub came from, or ends a frame that was entered by a gosub; another script
takes over without returns. -/
inductive Goes : Frame → List Step → Frame → Prop
  | stay (frame) : Goes frame [] frame
  | line {frame rest last} (within : frame.cursor < frame.lines.length)
      (next : Goes { frame with cursor := frame.cursor + 1 } rest last) :
      Goes frame (.line frame :: rest) last
  | goto {frame rest last} (cursor : Nat) (next : Goes { frame with cursor := cursor } rest last) :
      Goes frame (.move .goto :: rest) last
  | gosub {frame rest last} (cursor : Nat)
      (next : Goes { frame with cursor := cursor, returns := frame.cursor :: frame.returns }
        rest last) :
      Goes frame (.move .gosub :: rest) last
  | leave {frame after rest last} (returned : Session.returned? frame = some after)
      (next : Goes after rest last) : Goes frame (.move .leave :: rest) last
  | replace {frame rest last} (other : Frame) (fresh : other.returns = [])
      (next : Goes other rest last) : Goes frame (.move .replace :: rest) last

variable {first middle last : Frame}

theorem Goes.append {early late : List Step} (begins : first.Goes early middle)
    (ends : middle.Goes late last) : first.Goes (early ++ late) last := by
  induction begins with
  | stay frame => exact ends
  | line within _ inductionHypothesis => exact .line within (inductionHypothesis ends)
  | goto cursor _ inductionHypothesis => exact .goto cursor (inductionHypothesis ends)
  | gosub cursor _ inductionHypothesis => exact .gosub cursor (inductionHypothesis ends)
  | leave returned _ inductionHypothesis => exact .leave returned (inductionHypothesis ends)
  | replace other fresh _ inductionHypothesis =>
      exact .replace other fresh (inductionHypothesis ends)

/-- A run can be stopped after any of its steps. -/
theorem Goes.split {early late : List Step} (goes : first.Goes (early ++ late) last) :
    ∃ middle, first.Goes early middle ∧ middle.Goes late last := by
  induction early generalizing first with
  | nil => exact ⟨first, .stay first, goes⟩
  | cons step rest inductionHypothesis =>
      cases goes with
      | line within next =>
          obtain ⟨middle, begins, ends⟩ := inductionHypothesis next
          exact ⟨middle, .line within begins, ends⟩
      | goto cursor next =>
          obtain ⟨middle, begins, ends⟩ := inductionHypothesis next
          exact ⟨middle, .goto cursor begins, ends⟩
      | gosub cursor next =>
          obtain ⟨middle, begins, ends⟩ := inductionHypothesis next
          exact ⟨middle, .gosub cursor begins, ends⟩
      | leave returned next =>
          obtain ⟨middle, begins, ends⟩ := inductionHypothesis next
          exact ⟨middle, .leave returned begins, ends⟩
      | replace other fresh next =>
          obtain ⟨middle, begins, ends⟩ := inductionHypothesis next
          exact ⟨middle, .replace other fresh begins, ends⟩

end Frame

/-- Every gosub among the steps has its return among them, and no other script takes over. -/
inductive Balanced : List Step → Prop
  | nil : Balanced []
  | line {rest} (frame : Frame) (balanced : Balanced rest) : Balanced (.line frame :: rest)
  | goto {rest} (balanced : Balanced rest) : Balanced (.move .goto :: rest)
  | gosub {inside rest} (inner : Balanced inside) (balanced : Balanced rest) :
      Balanced (.move .gosub :: (inside ++ .move .leave :: rest))

/-- The frames have the same script and the same pending returns. -/
structure Frame.SamePlace (first second : Frame) : Prop where
  name : second.name = first.name
  lines : second.lines = first.lines
  returns : second.returns = first.returns
  enteredByGosub : second.enteredByGosub = first.enteredByGosub

/-- Balanced steps bring a frame back to the returns that it had. -/
theorem Balanced.samePlace {inside : List Step} (balanced : Balanced inside) {first last : Frame}
    (goes : first.Goes inside last) : first.SamePlace last := by
  induction balanced generalizing first last with
  | nil =>
      cases goes
      exact ⟨rfl, rfl, rfl, rfl⟩
  | line frame _ inductionHypothesis =>
      cases goes with
      | line within next =>
          have same := inductionHypothesis next
          exact ⟨same.name, same.lines, same.returns, same.enteredByGosub⟩
  | goto _ inductionHypothesis =>
      cases goes with
      | goto cursor next =>
          have same := inductionHypothesis next
          exact ⟨same.name, same.lines, same.returns, same.enteredByGosub⟩
  | gosub _ _ innerHypothesis restHypothesis =>
      cases goes with
      | gosub cursor next =>
          obtain ⟨middle, inner, outer⟩ := next.split
          have sameInside := innerHypothesis inner
          cases outer with
          | leave returned rest =>
              rw [Session.returned?, sameInside.returns] at returned
              cases returned
              have sameRest := restHypothesis rest
              exact ⟨sameRest.name.trans sameInside.name, sameRest.lines.trans sameInside.lines,
                sameRest.returns, sameRest.enteredByGosub.trans sameInside.enteredByGosub⟩

/-- After a gosub and balanced steps, the return leads back to where the gosub came from. -/
theorem Balanced.returns {inside : List Step} (balanced : Balanced inside) {first last : Frame}
    (goes : first.Goes (.move .gosub :: (inside ++ [.move .leave])) last) :
    first.SamePlace last ∧ last.cursor = first.cursor := by
  cases goes with
  | gosub cursor next =>
      obtain ⟨middle, inner, outer⟩ := next.split
      have same := balanced.samePlace inner
      cases outer with
      | leave returned rest =>
          rw [Session.returned?, same.returns] at returned
          cases returned
          cases rest
          exact ⟨⟨same.name, same.lines, rfl, same.enteredByGosub⟩, rfl⟩

/-- Without a pending return, a return after balanced steps can only end the frame. -/
theorem Balanced.finishes {inside : List Step} (balanced : Balanced inside) {first last : Frame}
    (fresh : first.returns = []) (goes : first.Goes (inside ++ [.move .leave]) last) :
    last.cursor = last.lines.length := by
  obtain ⟨middle, inner, outer⟩ := goes.split
  have same := balanced.samePlace inner
  cases outer with
  | leave returned rest =>
      rw [Session.returned?, same.returns, fresh] at returned
      simp only [Option.ite_none_right_eq_some, Option.some.injEq] at returned
      obtain ⟨_, rfl⟩ := returned
      cases rest
      rfl

end ManagementShell

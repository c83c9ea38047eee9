import ManagementShell.Proofs.Text.Lacks

/-
This file shows that a text is cut where its mark stands, and only there.
-/

namespace ManagementShell.Text

variable {front back text : Text} {mark : Char}

theorem after?_eq_some {beginning rest : Text} :
    text.after? beginning = some rest ↔ beginning ++ rest = text :=
  List.isPrefixOf?_eq_some_iff_append_eq

/-- A beginning does not go on behind a character that it lacks. -/
theorem prefix_of_append {beginning used other : Text} {character : Char}
    (member : character ∈ used) (absent : character ∉ beginning)
    (starts : beginning <+: used ++ other) : beginning <+: used := by
  rcases Nat.le_total beginning.length used.length with shorter | longer
  · exact List.prefix_of_prefix_length_le starts (List.prefix_append _ _) shorter
  · have inside := List.prefix_of_prefix_length_le (List.prefix_append used other) starts longer
    exact absurd (inside.subset member) absent

theorem cut?_cons (character : Char) (rest : Text) : cut? (character :: rest) [mark] =
    if mark = character then some ([], rest)
    else (cut? rest [mark]).map fun parts => (character :: parts.1, parts.2) := by
  rw [cut?, after?, List.isPrefixOf?, List.isPrefixOf?.eq_def]
  by_cases same : mark = character
  · simp [same]
  · simp [same]

theorem cut?_append (absent : mark ∉ front) :
    cut? (front ++ mark :: back) [mark] = some (front, back) := by
  induction front with
  | nil => rw [List.nil_append, cut?_cons, if_pos rfl]
  | cons character rest inductionHypothesis =>
      rw [List.mem_cons, not_or] at absent
      rw [List.cons_append, cut?_cons, if_neg absent.1, inductionHypothesis absent.2]
      rfl

theorem cut?_eq_none (absent : mark ∉ text) : text.cut? [mark] = none := by
  induction text with
  | nil => rfl
  | cons character rest inductionHypothesis =>
      rw [List.mem_cons, not_or] at absent
      rw [cut?_cons, if_neg absent.1, inductionHypothesis absent.2]
      rfl

theorem cut?_eq_some (mark : Char) : text.cut? [mark] = some (front, back) ↔
    text = front ++ mark :: back ∧ mark ∉ front := by
  refine ⟨fun isCut => ?_, fun ⟨written, absent⟩ => written ▸ cut?_append absent⟩
  have member : mark ∈ text := by
    by_contra absent
    rw [cut?_eq_none absent] at isCut
    cases isCut
  obtain ⟨before, after, rfl, absent⟩ := List.eq_append_cons_of_mem member
  rw [cut?_append absent] at isCut
  cases isCut
  exact ⟨rfl, absent⟩

theorem cutLast?_eq_none (absent : mark ∉ text) : text.cutLast? mark = none := by
  induction text with
  | nil => rfl
  | cons character rest inductionHypothesis =>
      rw [List.mem_cons, not_or] at absent
      rw [cutLast?, inductionHypothesis absent.2]
      exact if_neg (Ne.symm absent.1)

theorem cutLast?_append (absent : mark ∉ back) :
    cutLast? (front ++ mark :: back) mark = some (front, back) := by
  induction front with
  | nil => rw [List.nil_append, cutLast?, cutLast?_eq_none absent, if_pos rfl]
  | cons character rest inductionHypothesis => rw [List.cons_append, cutLast?, inductionHypothesis]

theorem eq_of_cutLast? (isCut : text.cutLast? mark = some (front, back)) :
    text = front ++ mark :: back := by
  induction text generalizing front with
  | nil => cases isCut
  | cons character rest inductionHypothesis =>
      unfold cutLast? at isCut
      split at isCut
      · rename_i isLater
        cases isCut
        rw [inductionHypothesis isLater, List.cons_append]
      · split at isCut
        · rename_i isMark
          cases isCut
          rw [isMark, List.nil_append]
        · cases isCut

end ManagementShell.Text

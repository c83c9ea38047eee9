import ManagementShell.Text
import Mathlib.Data.List.Infix

/-
This file shows what the replacement of a mark does at an occurrence of the mark and elsewhere.
-/

namespace ManagementShell.Text

/-- Past an occurrence, the rest of the text is replaced. -/
theorem replaceFrom_skip (mark replacement : Text) (skip : Nat) (text : Text) :
    replaceFrom mark replacement skip text = replaceAll (text.drop skip) mark replacement := by
  induction text generalizing skip with
  | nil => simp [replaceAll, replaceFrom]
  | cons character rest inductionHypothesis =>
      cases skip with
      | zero => rfl
      | succ skip => exact inductionHypothesis skip

theorem replaceAll_mark {mark : Text} (nonempty : mark ≠ []) (replacement rest : Text) :
    replaceAll (mark ++ rest) mark replacement = replacement ++ replaceAll rest mark replacement := by
  obtain ⟨first, others, rfl⟩ := List.exists_cons_of_ne_nil nonempty
  have begins : (first :: others).isPrefixOf (first :: (others ++ rest)) = true :=
    List.isPrefixOf_iff_prefix.mpr (List.prefix_append (first :: others) rest)
  rw [List.cons_append, replaceAll, replaceFrom, if_pos begins, replaceFrom_skip, List.length_cons,
    Nat.add_sub_cancel, List.drop_left]

theorem replaceAll_cons {mark : Text} {character : Char} {rest : Text}
    (elsewhere : ¬mark <+: character :: rest) (replacement : Text) :
    replaceAll (character :: rest) mark replacement =
      character :: replaceAll rest mark replacement := by
  rw [← List.isPrefixOf_iff_prefix] at elsewhere
  rw [replaceAll, replaceFrom, if_neg elsewhere, replaceAll]

/-- Where the first character of the mark does not stand, nothing is replaced. -/
theorem replaceAll_append {head : Text} {first : Char} (absent : first ∉ head)
    (others replacement rest : Text) :
    replaceAll (head ++ rest) (first :: others) replacement =
      head ++ replaceAll rest (first :: others) replacement := by
  induction head with
  | nil => rfl
  | cons character head inductionHypothesis =>
      rw [List.mem_cons, not_or] at absent
      have elsewhere : ¬first :: others <+: character :: (head ++ rest) := fun begins =>
        absent.1 (List.cons_prefix_cons.mp begins).1
      rw [List.cons_append, replaceAll_cons elsewhere, inductionHypothesis absent.2, List.cons_append]

/-- A text without the mark stays as it is. -/
theorem replaceAll_of_absent {mark text : Text} (absent : ¬mark <:+: text) (replacement : Text) :
    replaceAll text mark replacement = text := by
  induction text with
  | nil => rfl
  | cons character rest inductionHypothesis =>
      rw [replaceAll_cons fun begins => absent begins.isInfix,
        inductionHypothesis fun inside => absent (inside.trans (List.suffix_cons _ _).isInfix)]

theorem replaceAll_of_lacks {mark : Char} {text : Text} (lacks : mark ∉ text)
    (replacement : Text) : replaceAll text [mark] replacement = text :=
  replaceAll_of_absent (fun inside => lacks (inside.subset (List.mem_singleton_self mark)))
    replacement

/-- No occurrence of the mark goes past a character that the mark lacks. -/
theorem replaceAll_separated {mark : Text} (nonempty : mark ≠ []) {separator : Char}
    (absent : separator ∉ mark) (replacement front back : Text) :
    replaceAll (front ++ separator :: back) mark replacement =
      replaceAll front mark replacement ++ separator :: replaceAll back mark replacement := by
  induction isLength : front.length using Nat.strong_induction_on generalizing front with
  | _ length inductionHypothesis =>
  subst isLength
  by_cases begins : mark <+: front
  · obtain ⟨rest, rfl⟩ := begins
    have shorter : rest.length < (mark ++ rest).length := by
      have least := List.length_pos_iff.mpr nonempty
      rw [List.length_append]
      omega
    rw [List.append_assoc, replaceAll_mark nonempty, replaceAll_mark nonempty,
      inductionHypothesis _ shorter _ rfl, List.append_assoc]
  · have elsewhere : ¬mark <+: front ++ separator :: back := by
      intro starts
      rcases Nat.lt_or_ge front.length mark.length with longer | shorter
      · have inside : front ++ [separator] <+: mark := by
          refine List.prefix_of_prefix_length_le ?_ starts (by simp; omega)
          exact ⟨back, by simp⟩
        exact absent (inside.subset (by simp))
      · exact begins (List.prefix_of_prefix_length_le starts (List.prefix_append _ _) shorter)
    cases front with
    | nil => exact replaceAll_cons elsewhere replacement
    | cons character rest =>
        rw [List.cons_append] at elsewhere ⊢
        rw [replaceAll_cons elsewhere, replaceAll_cons begins,
          inductionHypothesis _ (Nat.lt_succ_self _) rest rfl, List.cons_append]

theorem replaceAll_ne_nil {mark replacement text : Text} (nonempty : replacement ≠ [])
    (given : text ≠ []) : replaceAll text mark replacement ≠ [] := by
  obtain ⟨first, rest, rfl⟩ := List.exists_cons_of_ne_nil given
  unfold replaceAll replaceFrom
  split
  · simp [nonempty]
  · exact List.cons_ne_nil _ _

/-- A mark lies behind a text that shares no character with it. -/
theorem infix_of_append {mark front rest : Text} (nonempty : mark ≠ [])
    (apart : ∀ character ∈ front, character ∉ mark) (inside : mark <:+: front ++ rest) :
    mark <:+: rest := by
  have empty {part : Text} (inMark : part ⊆ mark) (inFront : part ⊆ front) : part = [] :=
    List.eq_nil_iff_forall_not_mem.mpr fun character member =>
      apart character (inFront member) (inMark member)
  rcases List.infix_append_iff.mp inside with inFront | inRest | ⟨start, remainder, rfl, ends, begins⟩
  · exact absurd (empty (List.Subset.refl _) inFront.subset) nonempty
  · exact inRest
  · rw [empty (List.subset_append_left _ _) ends.subset]
    exact begins.isInfix

/-- A mark lies in front of a text that shares no character with it. -/
theorem infix_of_append_apart {mark text back : Text} (nonempty : mark ≠ [])
    (apart : ∀ character ∈ back, character ∉ mark) (inside : mark <:+: text ++ back) :
    mark <:+: text := by
  have reversed : mark.reverse <:+: back.reverse ++ text.reverse := by
    rw [← List.reverse_append]
    exact List.reverse_infix.mpr inside
  refine List.reverse_infix.mp (infix_of_append (List.reverse_ne_nil_iff.mpr nonempty) ?_ reversed)
  simpa using apart

/-- No occurrence of a mark goes past a character that the mark lacks. -/
theorem infix_separated {mark front back : Text} {separator : Char} (absent : separator ∉ mark)
    (inside : mark <:+: front ++ separator :: back) : mark <:+: front ∨ mark <:+: back := by
  have stops {part : Text} (inMark : part ⊆ mark) (begins : part <+: separator :: back) :
      part = [] := by
    rcases List.prefix_cons_iff.mp begins with empty | ⟨others, rfl, -⟩
    · exact empty
    · exact absurd (inMark List.mem_cons_self) absent
  rcases List.infix_append_iff.mp inside with inFront | inBack | ⟨start, remainder, rfl, ends, begins⟩
  · exact .inl inFront
  · rcases List.infix_cons_iff.mp inBack with here | later
    · rw [stops (List.Subset.refl _) here]
      exact .inl (List.nil_infix)
    · exact .inr later
  · rw [stops (List.subset_append_right _ _) begins, List.append_nil]
    exact .inl ends.isInfix

/-- What a text begins with after a replacement, it began with before, if the text that stands for
the mark has no part in it. -/
theorem prefix_of_replaceAll {mark replacement start text : Text} (nonempty : mark ≠ [])
    (given : replacement ≠ []) (apart : ∀ character ∈ replacement, character ∉ start)
    (starts : start <+: replaceAll text mark replacement) : start <+: text := by
  induction start generalizing text with
  | nil => exact List.nil_prefix
  | cons first others inductionHypothesis =>
      by_cases begins : mark <+: text
      · obtain ⟨rest, rfl⟩ := begins
        obtain ⟨character, more, rfl⟩ := List.exists_cons_of_ne_nil given
        rw [replaceAll_mark nonempty, List.cons_append, List.cons_prefix_cons] at starts
        exact absurd (starts.1 ▸ List.mem_cons_self) (apart character List.mem_cons_self)
      · cases text with
        | nil => exact absurd (List.eq_nil_of_prefix_nil starts) (List.cons_ne_nil _ _)
        | cons character rest =>
            rw [replaceAll_cons begins, List.cons_prefix_cons] at starts
            rw [List.cons_prefix_cons]
            exact ⟨starts.1, inductionHypothesis
              (fun other member inside => apart other member (.tail _ inside)) starts.2⟩

/-- No mark is left, and none arises, if the text that stands for it shares no character with it. -/
theorem replaceAll_absent {mark replacement : Text} (nonempty : mark ≠ []) (given : replacement ≠ [])
    (apart : ∀ character ∈ replacement, character ∉ mark) (text : Text) :
    ¬mark <:+: replaceAll text mark replacement := by
  induction isLength : text.length using Nat.strong_induction_on generalizing text with
  | _ length inductionHypothesis =>
  subst isLength
  intro inside
  by_cases begins : mark <+: text
  · obtain ⟨rest, rfl⟩ := begins
    rw [replaceAll_mark nonempty] at inside
    have shorter : rest.length < (mark ++ rest).length := by
      have least := List.length_pos_iff.mpr nonempty
      rw [List.length_append]
      omega
    exact inductionHypothesis _ shorter rest rfl (infix_of_append nonempty apart inside)
  · cases text with
    | nil => exact nonempty (List.eq_nil_of_infix_nil inside)
    | cons character rest =>
        have starts : ¬mark <+: replaceAll (character :: rest) mark replacement := fun starts =>
          begins (prefix_of_replaceAll nonempty given apart starts)
        rw [replaceAll_cons begins] at inside starts
        rcases List.infix_cons_iff.mp inside with here | later
        · exact starts here
        · exact inductionHypothesis _ (Nat.lt_succ_self _) rest rfl later

/-- A mark of one character is replaced wherever the character stands. -/
theorem replaceAll_found (mark : Char) (replacement rest : Text) :
    replaceAll (mark :: rest) [mark] replacement =
      replacement ++ replaceAll rest [mark] replacement :=
  replaceAll_mark (List.cons_ne_nil _ _) replacement rest

theorem replaceAll_passed {mark character : Char} (differs : character ≠ mark)
    (replacement rest : Text) : replaceAll (character :: rest) [mark] replacement =
      character :: replaceAll rest [mark] replacement :=
  replaceAll_cons (fun begins => differs (List.cons_prefix_cons.mp begins).1.symm) replacement

/-- The character is not left if the text that stands for it lacks it. -/
theorem replaceAll_clears {mark : Char} {replacement : Text} (lacks : mark ∉ replacement)
    (text : Text) : mark ∉ replaceAll text [mark] replacement := by
  induction text with
  | nil => exact List.not_mem_nil
  | cons character rest inductionHypothesis =>
      by_cases isMark : character = mark
      · rw [isMark, replaceAll_found, List.mem_append, not_or]
        exact ⟨lacks, inductionHypothesis⟩
      · rw [replaceAll_passed isMark, List.mem_cons, not_or]
        exact ⟨Ne.symm isMark, inductionHypothesis⟩

/-- A mark of one character lies in one of two parts. -/
theorem replaceAll_parts (mark : Char) (replacement front back : Text) :
    replaceAll (front ++ back) [mark] replacement =
      replaceAll front [mark] replacement ++ replaceAll back [mark] replacement := by
  induction front with
  | nil => rfl
  | cons character rest inductionHypothesis =>
      by_cases isMark : character = mark
      · rw [isMark, List.cons_append, replaceAll_found, replaceAll_found, inductionHypothesis,
          List.append_assoc]
      · rw [List.cons_append, replaceAll_passed isMark, replaceAll_passed isMark,
          inductionHypothesis, List.cons_append]

theorem replaceAll_join (mark : Char) (replacement separator : Text) (parts : List Text) :
    replaceAll (join separator parts) [mark] replacement =
      join (replaceAll separator [mark] replacement)
        (parts.map fun part => replaceAll part [mark] replacement) := by
  unfold join
  induction parts with
  | nil => rfl
  | cons first rest inductionHypothesis =>
      cases rest with
      | nil => simp
      | cons second others =>
          rw [List.intercalate_cons_cons, replaceAll_parts, replaceAll_parts, inductionHypothesis]
          simp only [List.map_cons, List.intercalate_cons_cons]

/-- After a replacement, a text ends as it did or with the replacement. -/
theorem replaceFrom_last {holds : Char → Prop} {mark replacement : Text}
    (nonempty : replacement ≠ []) (ends : ∀ character ∈ replacement.getLast?, holds character)
    (skip : Nat) {text : Text} (last : ∀ character ∈ text.getLast?, holds character) :
    ∀ character ∈ (replaceFrom mark replacement skip text).getLast?, holds character := by
  induction text generalizing skip with
  | nil => simp [replaceFrom]
  | cons first rest inductionHypothesis =>
      have later (skip : Nat) : ∀ character ∈ (replaceFrom mark replacement skip rest).getLast?,
          holds character := by
        refine inductionHypothesis skip fun character isLast => last character ?_
        simp [List.getLast?_cons, Option.mem_def.mp isLast]
      cases skip with
      | succ skip => exact later skip
      | zero =>
          unfold replaceFrom
          split
          · intro character isLast
            rw [List.getLast?_append, Option.mem_def, Option.or_eq_some_iff] at isLast
            rcases isLast with inRest | ⟨-, inReplacement⟩
            · exact later _ character inRest
            · exact ends character inReplacement
          · intro character isLast
            by_cases empty : rest = []
            · subst empty
              exact last character isLast
            · have given : replaceAll rest mark replacement ≠ [] := replaceAll_ne_nil nonempty empty
              rw [replaceAll] at given
              rw [List.getLast?_cons_of_ne_nil given] at isLast
              exact later 0 character isLast

end ManagementShell.Text

import ManagementShell.Proofs.Text.Blank
import ManagementShell.Proofs.Text.Lacks

/-
This file shows what happens to a text when its lines are trimmed and joined: every run of blanks
with a line feed in it goes, and everything else stays.
-/

namespace ManagementShell.Text

/-- What stays of a run of blanks between two other characters. -/
def keptBlanks (blanks : Text) : Text := if '\n' ∈ blanks then [] else blanks

/-- The run of blanks that was read last is kept back until its end is read. -/
def joinedFrom (blanks : Text) : Text → Text
  | [] => keptBlanks blanks
  | character :: rest =>
      if isBlank character then joinedFrom (blanks ++ [character]) rest
      else keptBlanks blanks ++ character :: joinedFrom [] rest

/-- The text with its lines joined, where its ends are not trimmed unless they are broken. -/
def joined (text : Text) : Text := joinedFrom [] text

/-- The characters that are not blank. -/
def dense (text : Text) : Text := text.filter (!isBlank ·)

/-- The second text is the first one without some of its blanks. -/
inductive Thinned : Text → Text → Prop where
  | nil : Thinned [] []
  | keep {text less : Text} (character : Char) (rest : Thinned text less) :
      Thinned (character :: text) (character :: less)
  | drop {text less : Text} {character : Char} (blank : isBlank character = true)
      (rest : Thinned text less) : Thinned (character :: text) less

theorem dense_append (first second : Text) :
    dense (first ++ second) = dense first ++ dense second := List.filter_append ..

theorem dense_cons (character : Char) (rest : Text) :
    dense (character :: rest) = dense [character] ++ dense rest := dense_append [character] rest

theorem dense_blanks {blanks : Text} (areBlank : blanks.all isBlank = true) : dense blanks = [] := by
  simpa [dense, List.filter_eq_nil_iff] using areBlank

theorem keptBlanks_nil : keptBlanks [] = [] := rfl

theorem joinedFrom_append_of_starts (blanks first : Text) {second : Text}
    (starts : StartsVisible second) :
    joinedFrom blanks (first ++ second) = joinedFrom blanks first ++ joined second := by
  induction first generalizing blanks with
  | nil =>
      cases second with
      | nil => simp [joined, joinedFrom, keptBlanks_nil]
      | cons character rest =>
          have visible : isBlank character = false := starts character rfl
          simp [joined, joinedFrom, visible, keptBlanks_nil]
  | cons character rest inductionHypothesis =>
      rw [List.cons_append, joinedFrom, joinedFrom]
      split
      · exact inductionHypothesis _
      · rw [inductionHypothesis, List.append_assoc, List.cons_append]

theorem joinedFrom_append_of_ends {first : Text} (nonempty : first ≠ []) (ends : EndsVisible first)
    (blanks second : Text) :
    joinedFrom blanks (first ++ second) = joinedFrom blanks first ++ joined second := by
  induction first generalizing blanks with
  | nil => exact absurd rfl nonempty
  | cons character rest inductionHypothesis =>
      rw [List.cons_append, joinedFrom, joinedFrom]
      cases rest with
      | nil =>
          have visible : isBlank character = false := ends character rfl
          simp [visible, joined, joinedFrom, keptBlanks_nil]
      | cons next others =>
          have more := inductionHypothesis (List.cons_ne_nil _ _)
            (fun last isLast => ends last (by simpa using isLast))
          split
          · exact more _
          · rw [more, List.append_assoc, List.cons_append]

theorem joined_append_of_starts (first : Text) {second : Text} (starts : StartsVisible second) :
    joined (first ++ second) = joined first ++ joined second :=
  joinedFrom_append_of_starts [] first starts

theorem joined_append_of_ends {first : Text} (ends : EndsVisible first) (second : Text) :
    joined (first ++ second) = joined first ++ joined second := by
  by_cases empty : first = []
  · rw [empty]
    rfl
  · exact joinedFrom_append_of_ends empty ends [] second

theorem joinedFrom_of_oneLine {text blanks : Text} (oneLine : '\n' ∉ blanks ++ text) :
    joinedFrom blanks text = blanks ++ text := by
  induction text generalizing blanks with
  | nil =>
      rw [List.append_nil] at oneLine ⊢
      exact if_neg oneLine
  | cons character rest inductionHypothesis =>
      rw [joinedFrom]
      split
      · rw [inductionHypothesis (by simpa using oneLine)]
        simp
      · have noBreak : '\n' ∉ blanks ∧ '\n' ∉ [] ++ rest := by simp_all
        rw [inductionHypothesis noBreak.2, keptBlanks, if_neg noBreak.1, List.nil_append]

/-- A text on one line stays as it is. -/
theorem joined_of_oneLine {text : Text} (oneLine : '\n' ∉ text) : joined text = text :=
  joinedFrom_of_oneLine oneLine

theorem Thinned.blanks {blanks text less : Text} (areBlank : blanks.all isBlank = true)
    (thinned : Thinned text less) : Thinned (blanks ++ text) less ∧
      Thinned (blanks ++ text) (blanks ++ less) := by
  induction blanks with
  | nil => exact ⟨thinned, thinned⟩
  | cons blank others inductionHypothesis =>
      rw [List.all_cons, Bool.and_eq_true] at areBlank
      have rest := inductionHypothesis areBlank.2
      exact ⟨.drop areBlank.1 rest.1, .keep blank rest.2⟩

theorem Thinned.keptBlanks {blanks text less : Text} (areBlank : blanks.all isBlank = true)
    (thinned : Thinned text less) : Thinned (blanks ++ text) (keptBlanks blanks ++ less) := by
  unfold Text.keptBlanks
  split
  · exact (thinned.blanks areBlank).1
  · exact (thinned.blanks areBlank).2

theorem thinned_joinedFrom (blanks : Text) (areBlank : blanks.all isBlank = true) (text : Text) :
    Thinned (blanks ++ text) (joinedFrom blanks text) := by
  induction text generalizing blanks with
  | nil =>
      have kept := Thinned.nil.keptBlanks areBlank
      rwa [List.append_nil (keptBlanks blanks)] at kept
  | cons character rest inductionHypothesis =>
      rw [joinedFrom]
      split
      · rename_i blank
        have longer : (blanks ++ [character]).all isBlank = true := by simp_all
        have thinned := inductionHypothesis _ longer
        rwa [List.append_assoc, List.singleton_append] at thinned
      · have more : Thinned rest (joinedFrom [] rest) :=
          inductionHypothesis [] List.all_nil
        exact .keptBlanks areBlank (.keep character more)

/-- Joining takes nothing but blanks away. -/
theorem thinned_joined (text : Text) : Thinned text (joined text) :=
  thinned_joinedFrom [] List.all_nil text

theorem Thinned.subset {text less : Text} (thinned : Thinned text less) : less ⊆ text := by
  induction thinned with
  | nil => exact List.Subset.refl _
  | keep character rest inductionHypothesis => exact List.cons_subset_cons _ inductionHypothesis
  | drop blank rest inductionHypothesis => exact List.subset_cons_of_subset _ inductionHypothesis

theorem Thinned.head {text less : Text} (thinned : Thinned text less)
    (starts : StartsVisible text) : less.head? = text.head? := by
  cases thinned with
  | nil => rfl
  | keep => rfl
  | drop blank rest =>
      rw [starts _ rfl] at blank
      cases blank

theorem joined_blanks {blanks : Text} (areBlank : blanks.all isBlank = true) :
    joined blanks = keptBlanks blanks := by
  suffices from_ : ∀ before : Text, joinedFrom before blanks = keptBlanks (before ++ blanks) from
    from_ []
  induction blanks with
  | nil =>
      intro before
      rw [List.append_nil]
      rfl
  | cons blank others inductionHypothesis =>
      rw [List.all_cons, Bool.and_eq_true] at areBlank
      intro before
      rw [joinedFrom, if_pos areBlank.1, inductionHypothesis areBlank.2, List.append_assoc]
      rfl

theorem trim_append_blank (text : Text) {blank : Char} (isBlank : isBlank blank = true) :
    trim (text ++ [blank]) = trim text := by
  have ended (front : Text) : trimEnd (front ++ [blank]) = trimEnd front := by
    simp [trimEnd, dropWhileEnd, isBlank]
  rw [trim, trim, trimStart, List.dropWhile_append]
  split
  · rename_i allBlank
    rw [List.isEmpty_iff] at allBlank
    rw [trimStart, allBlank]
    simp [isBlank]
  · rw [ended]
    rfl

theorem trim_append_blanks (text : Text) {blanks : Text} (areBlank : blanks.all isBlank = true) :
    trim (text ++ blanks) = trim text := by
  induction blanks using List.reverseRecOn with
  | nil => rw [List.append_nil]
  | append_singleton front last inductionHypothesis =>
      rw [List.all_append, Bool.and_eq_true] at areBlank
      rw [← List.append_assoc, trim_append_blank _ (by simpa using areBlank.2),
        inductionHypothesis areBlank.1]

theorem trim_blanks_append {blanks : Text} (areBlank : blanks.all isBlank = true) (text : Text) :
    trim (blanks ++ text) = trim text := by
  rw [trim, trimStart, List.dropWhile_append_of_pos (List.all_eq_true.mp areBlank)]
  rfl

theorem trim_eq_nil {text : Text} : trim text = [] ↔ text.all isBlank = true := by
  constructor
  · intro isNil
    obtain ⟨front, back, isText, areBlank, areBlankToo⟩ := exists_trim text
    rw [isText, isNil, List.nil_append, List.all_append, areBlank, areBlankToo]
    rfl
  · intro areBlank
    have all := trim_blanks_append areBlank []
    rwa [List.append_nil] at all

theorem lines_cons {character : Char} {rest : Text} (noEnd : character ≠ '\n')
    (noReturn : rest.head? ≠ some '\n') : lines (character :: rest) =
      match lines rest with
      | [] => [[character]]
      | first :: others => (character :: first) :: others := by
  conv_lhs => unfold lines
  split
  · rename_i same
    cases same
  · rename_i same
    cases same
    exact absurd rfl noEnd
  · rename_i same
    cases same
    exact absurd rfl noReturn
  · rename_i same
    cases same
    rfl

theorem lines_of_not_mem {line : Text} (oneLine : '\n' ∉ line) (nonempty : line ≠ []) :
    line.lines = [line] := by
  induction line with
  | nil => exact absurd rfl nonempty
  | cons character rest inductionHypothesis =>
      rw [List.mem_cons, not_or] at oneLine
      have noReturn : rest.head? ≠ some '\n' :=
        fun isHead => oneLine.2 (List.mem_of_mem_head? isHead)
      rw [lines_cons (Ne.symm oneLine.1) noReturn]
      cases rest with
      | nil => rfl
      | cons next others => rw [inductionHypothesis oneLine.2 (List.cons_ne_nil _ _)]

/-- A carriage return in front of a line feed is dropped, but it would be trimmed anyway. -/
theorem lines_append {line : Text} (oneLine : '\n' ∉ line) (rest : Text) :
    ∃ kept, (line ++ '\n' :: rest).lines = kept :: rest.lines ∧ trim kept = trim line := by
  suffices split : ∃ kept, (line ++ '\n' :: rest).lines = kept :: rest.lines ∧
      (kept = line ∨ line = kept ++ ['\r']) by
    obtain ⟨kept, isLines, rfl | rfl⟩ := split
    · exact ⟨kept, isLines, rfl⟩
    · exact ⟨kept, isLines, (trim_append_blank kept rfl).symm⟩
  induction line with
  | nil => exact ⟨[], rfl, .inl rfl⟩
  | cons character others inductionHypothesis =>
      rw [List.mem_cons, not_or] at oneLine
      obtain ⟨kept, isLines, same⟩ := inductionHypothesis oneLine.2
      rw [List.cons_append]
      cases others with
      | nil =>
          by_cases isReturn : character = '\r'
          · rw [isReturn]
            exact ⟨[], rfl, .inr rfl⟩
          · refine ⟨[character], ?_, .inl rfl⟩
            rw [lines]
            · rfl
            · exact Ne.symm oneLine.1
            · exact fun _ same => absurd same isReturn
      | cons next more =>
          have noReturn : ((next :: more) ++ '\n' :: rest).head? ≠ some '\n' := by
            simpa using fun same : next = '\n' => oneLine.2 (by simp [same])
          rw [lines_cons (Ne.symm oneLine.1) noReturn, isLines]
          refine ⟨character :: kept, rfl, ?_⟩
          rcases same with rfl | same
          · exact .inl rfl
          · exact .inr (by rw [same, List.cons_append])

/-- The lines of a text, trimmed and joined. -/
def trimmedLines (text : Text) : Text := text.lines.flatMap trim

theorem trimmedLines_of_not_mem {line : Text} (oneLine : '\n' ∉ line) :
    trimmedLines line = trim line := by
  by_cases empty : line = []
  · rw [empty]
    rfl
  · rw [trimmedLines, lines_of_not_mem oneLine empty, List.flatMap_singleton]

theorem trimmedLines_append {line : Text} (oneLine : '\n' ∉ line) (rest : Text) :
    trimmedLines (line ++ '\n' :: rest) = trim line ++ trimmedLines rest := by
  obtain ⟨kept, isLines, same⟩ := lines_append oneLine rest
  rw [trimmedLines, isLines, List.flatMap_cons, same]
  rfl

theorem trimmedLines_cons_blank {blank : Char} (isBlank : isBlank blank = true) (text : Text) :
    trimmedLines (blank :: text) = trimmedLines text := by
  have dropped (line : Text) : trim (blank :: line) = trim line := by
    simp [trim, trimStart, isBlank]
  by_cases lineFeed : blank = '\n'
  · rw [lineFeed]
    rfl
  · by_cases oneLine : '\n' ∈ text
    · obtain ⟨line, rest, rfl, absent⟩ := List.eq_append_cons_of_mem oneLine
      have longer : '\n' ∉ blank :: line := by simp [absent, Ne.symm lineFeed]
      rw [trimmedLines_append absent, ← List.cons_append, trimmedLines_append longer, dropped]
    · have longer : '\n' ∉ blank :: text := by simp [oneLine, Ne.symm lineFeed]
      rw [trimmedLines_of_not_mem oneLine, trimmedLines_of_not_mem longer, dropped]

theorem trimmedLines_blanks {blanks : Text} (areBlank : blanks.all isBlank = true)
    (text : Text) : trimmedLines (blanks ++ text) = trimmedLines text := by
  induction blanks with
  | nil => rfl
  | cons blank others inductionHypothesis =>
      rw [List.all_cons, Bool.and_eq_true] at areBlank
      rw [List.cons_append, trimmedLines_cons_blank areBlank.1, inductionHypothesis areBlank.2]

theorem exists_blanks_at_start (text : Text) : ∃ blanks rest, text = blanks ++ rest ∧
    blanks.all isBlank = true ∧ StartsVisible rest :=
  ⟨text.takeWhile isBlank, text.trimStart, (List.takeWhile_append_dropWhile).symm,
    List.all_takeWhile, startsVisible_trimStart text⟩

theorem exists_blanks_at_end (text : Text) : ∃ front blanks, text = front ++ blanks ∧
    blanks.all isBlank = true ∧ EndsVisible front := by
  obtain ⟨blanks, rest, isReverse, areBlank, starts⟩ := exists_blanks_at_start text.reverse
  refine ⟨rest.reverse, blanks.reverse, ?_, by simpa using areBlank, fun character isLast => ?_⟩
  · rw [← List.reverse_append, ← isReverse, List.reverse_reverse]
  · exact starts character (by simpa using isLast)

/-- The induction is on the lines; a line that is not the last goes with the blanks around its
end. -/
theorem trimmedLines_eq {text : Text} (trimmed : Trimmed text) : trimmedLines text = joined text := by
  by_cases oneLine : '\n' ∈ text
  · obtain ⟨line, rest, rfl, absent⟩ := List.eq_append_cons_of_mem oneLine
    obtain ⟨front, blanks, rfl, areBlank, ends⟩ := exists_blanks_at_end line
    obtain ⟨more, next, rfl, areMore, starts⟩ := exists_blanks_at_start rest
    have gap : keptBlanks (blanks ++ '\n' :: more) = [] := if_pos (by simp)
    have areGap : (blanks ++ '\n' :: more).all isBlank = true := by
      simpa [areBlank, areMore] using (by decide : isBlank '\n' = true)
    have regrouped : front ++ blanks ++ '\n' :: (more ++ next) =
        front ++ ((blanks ++ '\n' :: more) ++ next) := by simp
    have lineTrimmed : trim (front ++ blanks) = front := by
      have trimmedFront : Trimmed front :=
        ⟨fun character isHead => trimmed.head character (by simp [Option.mem_def.mp isHead]), ends⟩
      rw [trim_append_blanks front areBlank, trimmedFront.trim_eq]
    have nextTrimmed : Trimmed next := by
      refine ⟨starts, fun character isLast => trimmed.last character ?_⟩
      rw [regrouped, ← List.append_assoc, List.getLast?_append, Option.mem_def.mp isLast]
      rfl
    have frontOneLine : '\n' ∉ front := fun member => absent (List.mem_append_left _ member)
    have shorter : next.length < (front ++ blanks ++ '\n' :: (more ++ next)).length := by
      simp
      omega
    rw [trimmedLines_append absent, trimmedLines_blanks areMore, trimmedLines_eq nextTrimmed,
      lineTrimmed, regrouped, joined_append_of_ends ends, joined_append_of_starts _ starts,
      joined_blanks areGap, gap, List.nil_append, joined_of_oneLine frontOneLine]
  · rw [trimmedLines_of_not_mem oneLine, joined_of_oneLine oneLine, trimmed.trim_eq]
termination_by text.length

end ManagementShell.Text

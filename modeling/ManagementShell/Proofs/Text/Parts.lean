import ManagementShell.Element.Outline
import ManagementShell.Proofs.Text.Blank

/-
This file counts the parts of a text that blank lines set apart, and shows that none of them is lost
when the text is squeezed and trimmed.
-/

namespace ManagementShell

namespace Text

/-- Some character of the text is not blank. -/
def Visible (text : Text) : Prop := ∃ character ∈ text, isBlank character = false

instance (text : Text) : Decidable (Visible text) :=
  List.decidableBEx (fun character => isBlank character = false) text

/-- The text has this many visible parts, or more, with blank lines between them. -/
inductive HasParts : Nat → Text → Prop where
  | none (text : Text) : HasParts 0 text
  | last {text : Text} (visible : Visible text) : HasParts 1 text
  | more {count : Nat} {first rest : Text} (visible : Visible first)
      (later : HasParts (count + 1) rest) : HasParts (count + 2) (first ++ "\n\n" ++ rest)

variable {first second text : Text} {count more : Nat}

theorem Visible.append_left (visible : Visible second) (first : Text) :
    Visible (first ++ second) := by
  obtain ⟨character, member, isVisible⟩ := visible
  exact ⟨character, List.mem_append_right first member, isVisible⟩

theorem Visible.append_right (visible : Visible first) (second : Text) :
    Visible (first ++ second) := by
  obtain ⟨character, member, isVisible⟩ := visible
  exact ⟨character, List.mem_append_left second member, isVisible⟩

theorem Visible.ne_nil (visible : Visible text) : text ≠ [] := by
  obtain ⟨character, member, _⟩ := visible
  exact List.ne_nil_of_mem member

theorem Visible.split (visible : Visible text) : ∃ front character back,
    text = front ++ character :: back ∧ character ≠ '\n' ∧ isBlank character = false := by
  obtain ⟨character, member, isVisible⟩ := visible
  obtain ⟨front, back, isText⟩ := List.append_of_mem member
  refine ⟨front, character, back, isText, ?_, isVisible⟩
  rintro rfl
  cases isVisible

theorem Visible.reverse (visible : Visible text) : Visible text.reverse := by
  obtain ⟨character, member, isVisible⟩ := visible
  exact ⟨character, List.mem_reverse.mpr member, isVisible⟩

theorem Visible.trimStart (visible : Visible text) : Visible text.trimStart := by
  obtain ⟨character, member, isVisible⟩ := visible
  rw [← List.takeWhile_append_dropWhile (p := isBlank) (l := text), List.mem_append] at member
  rcases member with isTaken | isKept
  · rw [List.mem_takeWhile_imp isTaken] at isVisible
    cases isVisible
  · exact ⟨character, isKept, isVisible⟩

theorem Visible.trimEnd (visible : Visible text) : Visible text.trimEnd :=
  visible.reverse.trimStart.reverse

theorem trimStart_append_of_visible (visible : Visible first) (second : Text) :
    trimStart (first ++ second) = trimStart first ++ second := by
  have nonempty : (first.dropWhile isBlank).isEmpty ≠ true := by
    rw [ne_eq, List.isEmpty_iff]
    exact visible.trimStart.ne_nil
  rw [trimStart, List.dropWhile_append, if_neg nonempty]
  rfl

theorem trimEnd_append_of_visible (first : Text) (visible : Visible second) :
    trimEnd (first ++ second) = first ++ trimEnd second := by
  have started := trimStart_append_of_visible visible.reverse first.reverse
  unfold trimStart at started
  rw [trimEnd, trimEnd, dropWhileEnd, dropWhileEnd, List.reverse_append, started,
    List.reverse_append, List.reverse_reverse]

namespace HasParts

theorem visible (parts : HasParts (count + 1) text) : Visible text := by
  cases parts with
  | last visible => exact visible
  | more visible later =>
      rw [List.append_assoc]
      exact visible.append_right _

theorem prepend (parts : HasParts count text) (front : Text) : HasParts count (front ++ text) := by
  cases parts with
  | none => exact .none _
  | last visible => exact .last (visible.append_left front)
  | more visible later =>
      rw [← List.append_assoc, ← List.append_assoc]
      exact .more (visible.append_left front) later

theorem append (parts : HasParts count text) (back : Text) : HasParts count (text ++ back) := by
  induction parts with
  | none => exact .none _
  | last visible => exact .last (visible.append_right back)
  | more visible _ inductionHypothesis =>
      rw [List.append_assoc]
      exact .more visible inductionHypothesis

/-- A text that ends with a line and one more line feed set apart what comes before and after. -/
theorem join (parts : HasParts count first) (later : HasParts more second)
    (ends : first.getLast? = some '\n') : HasParts (count + more) (first ++ "\n" ++ second) := by
  cases more with
  | zero =>
      rw [List.append_assoc]
      exact parts.append _
  | succ more =>
      induction parts with
      | none =>
          rw [Nat.zero_add]
          exact later.prepend _
      | @last first visible =>
          obtain ⟨front, rfl⟩ := List.getLast?_eq_some_iff.mp ends
          have visibleFront : Visible front := by
            obtain ⟨character, member, isVisible⟩ := visible
            rcases List.mem_append.mp member with inFront | isEnd
            · exact ⟨character, inFront, isVisible⟩
            · rw [List.mem_singleton.mp isEnd] at isVisible
              cases isVisible
          rw [Nat.add_comm 1, List.append_assoc front]
          exact .more visibleFront later
      | @more count first rest visible later inductionHypothesis =>
          rw [List.getLast?_append_of_ne_nil _ later.visible.ne_nil] at ends
          rw [List.append_assoc, List.append_assoc, ← List.append_assoc rest, Nat.add_right_comm]
          exact .more visible (Nat.add_right_comm _ _ _ ▸ inductionHypothesis ends)

theorem trimStart (parts : HasParts count text) : HasParts count (Text.trimStart text) := by
  cases parts with
  | none => exact .none _
  | last visible => exact .last visible.trimStart
  | more visible later =>
      rw [List.append_assoc, trimStart_append_of_visible visible, ← List.append_assoc]
      exact .more visible.trimStart later

theorem trimEnd (parts : HasParts count text) : HasParts count (Text.trimEnd text) := by
  induction parts with
  | none => exact .none _
  | last visible => exact .last visible.trimEnd
  | more visible later inductionHypothesis =>
      rw [trimEnd_append_of_visible _ later.visible]
      exact .more visible inductionHypothesis

theorem trim (parts : HasParts count text) : HasParts count (Text.trim text) :=
  parts.trimStart.trimEnd

end HasParts

/-- One more character in front adds one occurrence at most. -/
theorem occurrences_cons (character : Char) (text : Text) :
    occurrences text "\n\n" ≤ occurrences (character :: text) "\n\n" ∧
      occurrences (character :: text) "\n\n" ≤ occurrences text "\n\n" + 1 := by
  induction text generalizing character with
  | nil => simp [occurrences, occurrencesFrom]
  | cons next rest inductionHypothesis =>
      by_cases isBlankLine : character = '\n' ∧ next = '\n'
      · obtain ⟨rfl, rfl⟩ := isBlankLine
        have bounds := inductionHypothesis '\n'
        have counted : occurrences ('\n' :: '\n' :: rest) "\n\n" = occurrences rest "\n\n" + 1 := rfl
        omega
      · have notBlankLine : ¬(("\n\n" : Text).isPrefixOf (character :: next :: rest)) = true := by
          rw [List.isPrefixOf_iff_prefix]
          rintro ⟨after, isText⟩
          cases isText
          exact isBlankLine ⟨rfl, rfl⟩
        have counted : occurrences (character :: next :: rest) "\n\n" =
            occurrences (next :: rest) "\n\n" := by
          rw [occurrences, occurrencesFrom, if_neg notBlankLine, occurrences]
        omega

theorem occurrences_append (front text : Text) :
    occurrences text "\n\n" ≤ occurrences (front ++ text) "\n\n" := by
  induction front with
  | nil => exact Nat.le_refl _
  | cons character front inductionHypothesis =>
      exact inductionHypothesis.trans (occurrences_cons character _).1

theorem occurrences_blankLine (text : Text) :
    occurrences ("\n\n" ++ text) "\n\n" = occurrences text "\n\n" + 1 := rfl

theorem HasParts.le_occurrences (parts : HasParts count text) :
    count ≤ occurrences (text ++ "\n\n") "\n\n" := by
  induction parts with
  | none => exact Nat.zero_le _
  | last => exact occurrences_append _ "\n\n"
  | @more count first rest visible later inductionHypothesis =>
      have counted := occurrences_append first ("\n\n" ++ (rest ++ "\n\n"))
      rw [occurrences_blankLine] at counted
      rw [List.append_assoc, List.append_assoc]
      omega

end Text

namespace Outline
open Text

theorem squeezeFrom_lineFeed (ends : Nat) (rest : Text) : squeezeFrom ends ('\n' :: rest) =
    if ends < 2 then '\n' :: squeezeFrom (ends + 1) rest else squeezeFrom ends rest := by
  rw [squeezeFrom]

theorem squeezeFrom_cons {character : Char} (noEnd : character ≠ '\n') (ends : Nat) (rest : Text) :
    squeezeFrom ends (character :: rest) = character :: squeezeFrom 0 rest := by
  rw [squeezeFrom]
  exact noEnd

/-- The line feeds before are put in front, since of all line feeds in a row two are kept. -/
theorem squeezeFrom_append {ends : Nat} (atMost : ends ≤ 2) (first rest : Text) :
    ∃ front, List.replicate ends '\n' ++ squeezeFrom ends (first ++ "\n\n" ++ rest) =
      front ++ "\n\n" ++ squeezeFrom 2 rest := by
  induction first generalizing ends with
  | nil =>
      have few : ends = 0 ∨ ends = 1 ∨ ends = 2 := by omega
      rcases few with rfl | rfl | rfl <;> exact ⟨[], rfl⟩
  | cons character first inductionHypothesis =>
      by_cases isEnd : character = '\n'
      · subst isEnd
        rw [List.cons_append, List.cons_append, squeezeFrom_lineFeed]
        split
        · rename_i less
          obtain ⟨front, isFront⟩ := inductionHypothesis less
          refine ⟨front, ?_⟩
          rw [← isFront, List.replicate_succ']
          simp
        · exact inductionHypothesis atMost
      · obtain ⟨front, isFront⟩ := inductionHypothesis (Nat.zero_le 2)
        rw [List.replicate_zero, List.nil_append] at isFront
        rw [List.cons_append, List.cons_append, squeezeFrom_cons isEnd, isFront]
        exact ⟨List.replicate ends '\n' ++ character :: front, by simp⟩

theorem squeezeFrom_append_cons {character : Char} (noEnd : character ≠ '\n') (ends : Nat)
    (front rest : Text) : squeezeFrom ends (front ++ character :: rest) =
      squeezeFrom ends front ++ character :: squeezeFrom 0 rest := by
  induction front generalizing ends with
  | nil => exact squeezeFrom_cons noEnd ends rest
  | cons first front inductionHypothesis =>
      rw [List.cons_append]
      by_cases isEnd : first = '\n'
      · subst isEnd
        rw [squeezeFrom_lineFeed, squeezeFrom_lineFeed]
        split <;> simp [inductionHypothesis]
      · rw [squeezeFrom_cons isEnd, squeezeFrom_cons isEnd, inductionHypothesis, List.cons_append]

end Outline

namespace Text.HasParts

/-- No visible part is lost, since of the line feeds in a row only those after the second go. -/
theorem squeezeFrom {count : Nat} {text : Text} (parts : HasParts count text) (ends : Nat) :
    HasParts count (Outline.squeezeFrom ends text) := by
  induction parts generalizing ends with
  | none => exact .none _
  | @last text visible =>
      obtain ⟨front, character, back, rfl, noEnd, isVisible⟩ := visible.split
      rw [Outline.squeezeFrom_append_cons noEnd]
      exact .last ⟨character, by simp, isVisible⟩
  | @more count first rest visible _ inductionHypothesis =>
      obtain ⟨front, character, back, rfl, noEnd, isVisible⟩ := visible.split
      obtain ⟨between, isBetween⟩ := Outline.squeezeFrom_append (Nat.zero_le 2) back rest
      rw [List.replicate_zero, List.nil_append] at isBetween
      rw [List.append_assoc, List.append_assoc, List.cons_append, ← List.append_assoc back,
        Outline.squeezeFrom_append_cons noEnd, isBetween, ← List.cons_append, ← List.cons_append,
        ← List.append_assoc, ← List.append_assoc]
      exact .more ⟨character, by simp, isVisible⟩ (inductionHypothesis 2)

end Text.HasParts

end ManagementShell

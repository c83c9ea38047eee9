import ManagementShell.Proofs.Text.Joining
import ManagementShell.Proofs.Text.Parts

/-
This file counts the blank lines of a text that is put together from paragraphs, after the text is
squeezed and trimmed: there is one for each paragraph between the first and the last visible one.
-/

namespace ManagementShell

section

variable {α : Type} {hides : α → Bool} {list : List α}

/-- The list without what is hidden at its ends. -/
def crop (hides : α → Bool) (list : List α) : List α :=
  (list.dropWhile hides).rdropWhile hides

theorem crop_subset (hides : α → Bool) (list : List α) : crop hides list ⊆ list :=
  List.Subset.trans (List.rdropWhile_prefix hides _).subset (List.dropWhile_suffix hides).subset

/-- Only what is hidden matters for how much stays. -/
theorem length_crop (hides : α → Bool) (list : List α) :
    (crop hides list).length = (crop id (list.map hides)).length := by
  simp [crop, List.dropWhile_map, List.rdropWhile, ← List.map_reverse]

theorem crop_first {first : α} {rest : List α} (isCrop : crop hides list = first :: rest) :
    hides first = false := by
  obtain ⟨dropped, isPrefix⟩ := List.rdropWhile_prefix hides (list.dropWhile hides)
  have isHead := List.head?_dropWhile_not hides list
  rw [← isPrefix, show (list.dropWhile hides).rdropWhile hides = first :: rest from isCrop] at isHead
  exact isHead

theorem crop_last {front : List α} {last : α} (isCrop : crop hides list = front ++ [last]) :
    hides last = false := by
  have nonempty : crop hides list ≠ [] := isCrop ▸ List.append_ne_nil_of_right_ne_nil _ (by simp)
  have isLast := List.rdropWhile_last_not hides (list.dropWhile hides) nonempty
  simp only [show (list.dropWhile hides).rdropWhile hides = front ++ [last] from isCrop,
    List.getLast_concat] at isLast
  exact Bool.eq_false_iff.mpr isLast

/-- Nothing is dropped if what is at the ends is not hidden. -/
theorem crop_eq_self (start : ∀ first ∈ list.head?, hides first = false)
    (stop : ∀ last ∈ list.getLast?, hides last = false) : crop hides list = list := by
  have noneAtFront : list.dropWhile hides = list := by
    cases list with
    | nil => rfl
    | cons first rest => exact List.dropWhile_cons_of_neg (by simp [start first rfl])
  have noneAtEnd : list.rdropWhile hides = list := by
    rw [List.rdropWhile_eq_self_iff]
    intro nonempty isHidden
    rw [stop _ (List.getLast?_eq_some_getLast nonempty)] at isHidden
    cases isHidden
  rw [crop, noneAtFront, noneAtEnd]

end

namespace Text

/-- One or more lines, none of which is empty; the last one lacks its end. -/
inductive IsParagraph : Text → Prop where
  | line {line : Text} (nonempty : line ≠ []) (single : '\n' ∉ line) : IsParagraph line
  | more {line rest : Text} (nonempty : line ≠ []) (single : '\n' ∉ line)
      (later : IsParagraph rest) : IsParagraph (line ++ '\n' :: rest)

theorem IsParagraph.append {first second : Text} (isFirst : IsParagraph first)
    (isSecond : IsParagraph second) : IsParagraph (first ++ '\n' :: second) := by
  induction isFirst with
  | line nonempty single => exact .more nonempty single isSecond
  | more nonempty single _ inductionHypothesis =>
      rw [List.append_assoc, List.cons_append]
      exact .more nonempty single inductionHypothesis

/-- The text has these paragraphs, with one or more blank lines between them. -/
inductive HasParagraphs : List Text → Text → Prop where
  | none : HasParagraphs [] []
  | feed {paragraphs : List Text} {text : Text} (later : HasParagraphs paragraphs text) :
      HasParagraphs paragraphs ('\n' :: text)
  | last {paragraph : Text} (isParagraph : IsParagraph paragraph) :
      HasParagraphs [paragraph] (paragraph ++ ['\n'])
  | more {paragraph text : Text} {paragraphs : List Text} (isParagraph : IsParagraph paragraph)
      (later : HasParagraphs paragraphs text) :
      HasParagraphs (paragraph :: paragraphs) (paragraph ++ '\n' :: '\n' :: text)

/-- Each paragraph with a blank line after it. -/
def ended (paragraphs : List Text) : Text := paragraphs.flatMap (· ++ ['\n', '\n'])

def isHidden (paragraph : Text) : Bool := !decide (Visible paragraph)

variable {paragraph text : Text} {paragraphs : List Text}

theorem all_blank_of_not_visible (hidden : ¬Visible text) : text.all isBlank = true := by
  simpa [Visible] using hidden

theorem visible_append {first second : Text} :
    Visible (first ++ second) ↔ Visible first ∨ Visible second := by
  simp [Visible, or_and_right, exists_or]

theorem visible_lineFeed_cons : Visible ('\n' :: text) ↔ Visible text := by
  have noFeed : ¬Visible ['\n'] := by decide
  rw [← List.singleton_append, visible_append, or_iff_right noFeed]

theorem ended_cons (paragraph : Text) (paragraphs : List Text) :
    ended (paragraph :: paragraphs) = paragraph ++ '\n' :: '\n' :: ended paragraphs := by
  simp [ended]

theorem ended_append (first second : List Text) :
    ended (first ++ second) = ended first ++ ended second := List.flatMap_append ..

theorem ended_singleton (paragraph : Text) : ended [paragraph] = paragraph ++ ['\n', '\n'] :=
  List.flatMap_singleton ..

theorem HasParagraphs.each (parts : HasParagraphs paragraphs text) :
    ∀ paragraph ∈ paragraphs, IsParagraph paragraph := by
  induction parts with
  | none => exact List.forall_mem_nil _
  | feed _ inductionHypothesis => exact inductionHypothesis
  | last isParagraph => exact List.forall_mem_singleton.mpr isParagraph
  | more isParagraph _ inductionHypothesis =>
      exact List.forall_mem_cons.mpr ⟨isParagraph, inductionHypothesis⟩

/-- One more line feed sets apart what comes before it and what comes after. -/
theorem HasParagraphs.join {more : List Text} {rest : Text} (first : HasParagraphs paragraphs text)
    (second : HasParagraphs more rest) : HasParagraphs (paragraphs ++ more) (text ++ '\n' :: rest) := by
  induction first with
  | none => exact .feed second
  | feed _ inductionHypothesis => exact .feed inductionHypothesis
  | last isParagraph =>
      rw [List.append_assoc]
      exact .more isParagraph second
  | more isParagraph _ inductionHypothesis =>
      rw [List.append_assoc]
      exact .more isParagraph inductionHypothesis

theorem trimStart_append_of_blank {front : Text} (areBlank : front.all isBlank = true)
    (rest : Text) : trimStart (front ++ rest) = trimStart rest :=
  List.dropWhile_append_of_pos (List.all_eq_true.mp areBlank)

theorem trimEnd_append_of_blank (text : Text) {blanks : Text} (areBlank : blanks.all isBlank = true) :
    trimEnd (text ++ blanks) = trimEnd text := by
  rw [trimEnd, dropWhileEnd, List.reverse_append, List.dropWhile_append_of_pos]
  · rfl
  · exact fun character member => List.all_eq_true.mp areBlank _ (List.mem_reverse.mp member)

theorem trimStart_subset (text : Text) : text.trimStart ⊆ text :=
  (List.dropWhile_suffix isBlank).subset

theorem trimEnd_subset (text : Text) : text.trimEnd ⊆ text := fun _ member =>
  List.mem_reverse.mp ((List.dropWhile_suffix isBlank).subset (List.mem_reverse.mp member))

namespace IsParagraph

/-- A paragraph loses its hidden lines at the front, and the blanks at the front of the next one. -/
theorem trimStart (isParagraph : IsParagraph paragraph) (visible : Visible paragraph) :
    IsParagraph paragraph.trimStart := by
  induction isParagraph with
  | line _ single =>
      exact .line visible.trimStart.ne_nil fun member => single (trimStart_subset _ member)
  | @more line rest _ single later inductionHypothesis =>
      by_cases shown : Visible line
      · rw [trimStart_append_of_visible shown]
        exact .more shown.trimStart.ne_nil (fun member => single (trimStart_subset _ member)) later
      · have areBlank : (line ++ ['\n']).all isBlank = true := by
          rw [List.all_append, all_blank_of_not_visible shown]
          rfl
        rw [visible_append, visible_lineFeed_cons] at visible
        rw [← List.singleton_append, ← List.append_assoc, trimStart_append_of_blank areBlank]
        exact inductionHypothesis (visible.resolve_left shown)

theorem trimEnd (isParagraph : IsParagraph paragraph) (visible : Visible paragraph) :
    IsParagraph paragraph.trimEnd := by
  induction isParagraph with
  | line _ single => exact .line visible.trimEnd.ne_nil fun member => single (trimEnd_subset _ member)
  | @more line rest nonempty single _ inductionHypothesis =>
      by_cases shown : Visible rest
      · rw [← List.singleton_append, ← List.append_assoc, trimEnd_append_of_visible _ shown,
          List.append_assoc]
        exact .more nonempty single (inductionHypothesis shown)
      · have areBlank : ('\n' :: rest).all isBlank = true :=
          all_blank_of_not_visible (mt visible_lineFeed_cons.mp shown)
        rw [visible_append, visible_lineFeed_cons] at visible
        rw [trimEnd_append_of_blank line areBlank]
        exact .line (visible.resolve_right shown).trimEnd.ne_nil fun member =>
          single (trimEnd_subset _ member)

theorem exists_head (isParagraph : IsParagraph paragraph) :
    ∃ first rest, paragraph = first :: rest ∧ first ≠ '\n' := by
  have head {line : Text} (nonempty : line ≠ []) (single : '\n' ∉ line) (rest : Text) :
      ∃ first others, line ++ rest = first :: others ∧ first ≠ '\n' := by
    obtain ⟨first, others, rfl⟩ := List.exists_cons_of_ne_nil nonempty
    exact ⟨first, others ++ rest, rfl, fun isFeed => single (isFeed ▸ List.mem_cons_self ..)⟩
  cases isParagraph with
  | line nonempty single => simpa using head nonempty single []
  | more nonempty single => exact head nonempty single _

end IsParagraph

theorem occurrences_cons_of_not_prefix {character : Char} {rest : Text}
    (noBlankLine : ¬['\n', '\n'] <+: character :: rest) :
    occurrences (character :: rest) "\n\n" = occurrences rest "\n\n" := by
  have notThere : ¬(("\n\n" : Text).isPrefixOf (character :: rest)) = true := by
    rw [List.isPrefixOf_iff_prefix]
    exact noBlankLine
  rw [occurrences, occurrencesFrom, if_neg notThere, occurrences]

theorem occurrences_line {line : Text} (single : '\n' ∉ line) (rest : Text) :
    occurrences (line ++ rest) "\n\n" = occurrences rest "\n\n" := by
  induction line with
  | nil => rfl
  | cons first line inductionHypothesis =>
      rw [List.mem_cons, not_or] at single
      rw [List.cons_append, occurrences_cons_of_not_prefix, inductionHypothesis single.2]
      exact fun isPrefix => single.1 (List.cons_prefix_cons.mp isPrefix).1

theorem IsParagraph.occurrences_append (isParagraph : IsParagraph paragraph) (rest : Text) :
    occurrences (paragraph ++ '\n' :: '\n' :: rest) "\n\n" = occurrences rest "\n\n" + 1 := by
  induction isParagraph with
  | line _ single =>
      rw [occurrences_line single]
      rfl
  | @more line others _ single later inductionHypothesis =>
      obtain ⟨first, back, rfl, noFeed⟩ := later.exists_head
      rw [List.append_assoc, occurrences_line single, List.cons_append,
        occurrences_cons_of_not_prefix, inductionHypothesis]
      intro isPrefix
      exact noFeed (List.cons_prefix_cons.mp (List.cons_prefix_cons.mp isPrefix).2).1.symm

theorem occurrences_ended (each : ∀ paragraph ∈ paragraphs, IsParagraph paragraph) :
    occurrences (ended paragraphs) "\n\n" = paragraphs.length := by
  induction paragraphs with
  | nil => rfl
  | cons first rest inductionHypothesis =>
      obtain ⟨isFirst, areRest⟩ := List.forall_mem_cons.mp each
      rw [ended_cons, isFirst.occurrences_append, inductionHypothesis areRest, List.length_cons]

theorem visible_of_not_isHidden (shown : isHidden paragraph = false) : Visible paragraph := by
  simpa [isHidden] using shown

theorem trimStart_ended {first : Text} (visible : Visible first) (rest : List Text) :
    trimStart (ended (first :: rest)) = ended (first.trimStart :: rest) := by
  rw [ended_cons, ended_cons, trimStart_append_of_visible visible]

theorem trimEnd_ended (front : List Text) {last : Text} (visible : Visible last) :
    trimEnd (ended (front ++ [last])) ++ ['\n', '\n'] = ended (front ++ [last.trimEnd]) := by
  rw [ended_append, ended_append, ended_singleton, ended_singleton,
    trimEnd_append_of_visible _ (visible.append_right _), trimEnd_append_of_blank last rfl,
    List.append_assoc]

/-- Trimming drops the hidden paragraphs at the ends. -/
theorem trim_ended_crop (paragraphs : List Text) :
    trim (ended (crop isHidden paragraphs)) = trim (ended paragraphs) := by
  have hides {paragraph : Text} (hidden : isHidden paragraph = true) :
      (paragraph ++ ['\n', '\n']).all isBlank = true := by
    have notVisible : ¬Visible paragraph := by simpa [isHidden] using hidden
    rw [List.all_append, all_blank_of_not_visible notVisible]
    rfl
  have atFront (rest : List Text) :
      trimStart (ended (rest.dropWhile isHidden)) = trimStart (ended rest) := by
    induction rest with
    | nil => rfl
    | cons first rest inductionHypothesis =>
        rw [List.dropWhile_cons]
        split
        · rename_i hidden
          rw [inductionHypothesis, ← List.singleton_append, ended_append, ended_singleton,
            trimStart_append_of_blank (hides hidden)]
        · rfl
  have atEnd (front : List Text) :
      trim (ended (front.rdropWhile isHidden)) = trim (ended front) := by
    induction front using List.reverseRecOn with
    | nil => rfl
    | append_singleton front last inductionHypothesis =>
        rw [List.rdropWhile_concat]
        split
        · rename_i hidden
          rw [inductionHypothesis, ended_append, ended_singleton, trim_append_blanks _ (hides hidden)]
        · rfl
  rw [crop, atEnd, trim, atFront, trim]

/-- What is left of visible paragraphs after trimming are as many paragraphs. -/
theorem exists_trimmed {shown : List Text} (each : ∀ paragraph ∈ shown, IsParagraph paragraph)
    (nonempty : shown ≠ []) (starts : ∀ first rest, shown = first :: rest → Visible first)
    (ends : ∀ front last, shown = front ++ [last] → Visible last) :
    ∃ trimmed, trim (ended shown) ++ ['\n', '\n'] = ended trimmed ∧
      trimmed.length = shown.length ∧ ∀ paragraph ∈ trimmed, IsParagraph paragraph := by
  obtain ⟨first, rest, rfl⟩ := List.exists_cons_of_ne_nil nonempty
  obtain ⟨isFirst, areRest⟩ := List.forall_mem_cons.mp each
  have visibleFirst := starts first rest rfl
  have started := isFirst.trimStart visibleFirst
  rw [trim, trimStart_ended visibleFirst]
  rcases List.eq_nil_or_concat' rest with rfl | ⟨middle, last, rfl⟩
  · refine ⟨[first.trimStart.trimEnd], trimEnd_ended [] visibleFirst.trimStart, rfl, ?_⟩
    exact List.forall_mem_singleton.mpr (started.trimEnd visibleFirst.trimStart)
  · rw [List.forall_mem_append, List.forall_mem_singleton] at areRest
    have visibleLast := ends (first :: middle) last rfl
    refine ⟨first.trimStart :: middle ++ [last.trimEnd], trimEnd_ended (_ :: middle) visibleLast,
      by simp, ?_⟩
    rw [List.forall_mem_append, List.forall_mem_cons, List.forall_mem_singleton]
    exact ⟨⟨started, areRest.1⟩, areRest.2.trimEnd visibleLast⟩

end Text

namespace Outline
open Text

/-- Line feeds at the beginning are kept up to the second; what follows is as after two of them. -/
theorem squeezeFrom_two (text : Text) {ends : Nat} (atMost : ends ≤ 2) :
    ∃ front, front.all isBlank = true ∧ squeezeFrom ends text = front ++ squeezeFrom 2 text := by
  induction text generalizing ends with
  | nil => exact ⟨[], rfl, rfl⟩
  | cons character rest inductionHypothesis =>
      by_cases isEnd : character = '\n'
      · subst isEnd
        rw [squeezeFrom_lineFeed, squeezeFrom_lineFeed, if_neg (Nat.lt_irrefl 2)]
        split
        · rename_i less
          obtain ⟨front, areBlank, isFront⟩ := inductionHypothesis less
          exact ⟨'\n' :: front, areBlank, congrArg _ isFront⟩
        · exact inductionHypothesis atMost
      · exact ⟨[], rfl, by rw [squeezeFrom_cons isEnd, squeezeFrom_cons isEnd, List.nil_append]⟩

theorem squeezeFrom_line {line : Text} (nonempty : line ≠ []) (single : '\n' ∉ line) (ends : Nat)
    (rest : Text) : squeezeFrom ends (line ++ rest) = line ++ squeezeFrom 0 rest := by
  induction line generalizing ends with
  | nil => exact absurd rfl nonempty
  | cons first line inductionHypothesis =>
      rw [List.mem_cons, not_or] at single
      rw [List.cons_append, squeezeFrom_cons (Ne.symm single.1), List.cons_append]
      cases line with
      | nil => rfl
      | cons second line => rw [inductionHypothesis (List.cons_ne_nil _ _) single.2]

/-- A paragraph has no blank line in it, so nothing of it is dropped. -/
theorem squeezeFrom_paragraph {paragraph : Text} (isParagraph : IsParagraph paragraph) (ends : Nat)
    (rest : Text) : squeezeFrom ends (paragraph ++ rest) = paragraph ++ squeezeFrom 0 rest := by
  induction isParagraph generalizing ends with
  | line nonempty single => exact squeezeFrom_line nonempty single ends rest
  | more nonempty single _ inductionHypothesis =>
      rw [List.append_assoc, squeezeFrom_line nonempty single, List.cons_append,
        squeezeFrom_lineFeed, if_pos (Nat.zero_lt_succ 1), inductionHypothesis, List.append_assoc,
        List.cons_append]

theorem squeezeFrom_paragraphs {paragraphs : List Text} {text : Text}
    (parts : HasParagraphs paragraphs text) :
    ∃ back, back.all isBlank = true ∧ squeezeFrom 2 text ++ back = ended paragraphs := by
  induction parts with
  | none => exact ⟨[], rfl, rfl⟩
  | feed _ inductionHypothesis => exact inductionHypothesis
  | last isParagraph =>
      refine ⟨['\n'], rfl, ?_⟩
      rw [squeezeFrom_paragraph isParagraph, ended_singleton, List.append_assoc]
      rfl
  | more isParagraph _ inductionHypothesis =>
      obtain ⟨back, areBlank, isEnded⟩ := inductionHypothesis
      refine ⟨back, areBlank, ?_⟩
      rw [squeezeFrom_paragraph isParagraph, ended_cons, ← isEnded, List.append_assoc]
      rfl

end Outline

namespace Text

/-- After the text is squeezed and trimmed, a blank line ends each paragraph from the first visible
one to the last, and nothing is left if there are none. -/
theorem HasParagraphs.trim_squeezed {paragraphs : List Text} {text : Text}
    (parts : HasParagraphs paragraphs text) :
    (trim (Outline.squeezeFrom 0 text) = [] ↔ crop isHidden paragraphs = []) ∧
      (crop isHidden paragraphs ≠ [] →
        occurrences (trim (Outline.squeezeFrom 0 text) ++ ['\n', '\n']) "\n\n" =
          (crop isHidden paragraphs).length) := by
  obtain ⟨front, areBlank, isSqueezed⟩ := Outline.squeezeFrom_two text (Nat.zero_le 2)
  obtain ⟨back, areBlankToo, isEnded⟩ := Outline.squeezeFrom_paragraphs parts
  have trimmed : trim (Outline.squeezeFrom 0 text) = trim (ended (crop isHidden paragraphs)) := by
    rw [trim_ended_crop, ← isEnded, trim_append_blanks _ areBlankToo, isSqueezed, trim,
      trimStart_append_of_blank areBlank, trim]
  rw [trimmed]
  cases isShown : crop isHidden paragraphs with
  | nil => exact ⟨iff_of_true rfl rfl, fun nonempty => absurd rfl nonempty⟩
  | cons first rest =>
      rw [← isShown]
      have nonempty : crop isHidden paragraphs ≠ [] := isShown ▸ List.cons_ne_nil _ _
      have visible : Visible (ended (crop isHidden paragraphs)) := by
        rw [isShown, ended_cons]
        exact (visible_of_not_isHidden (crop_first isShown)).append_right _
      obtain ⟨kept, isKept, sameLength, each⟩ := exists_trimmed
        (fun paragraph member => parts.each paragraph (crop_subset _ _ member)) nonempty
        (fun _ _ isCrop => visible_of_not_isHidden (crop_first isCrop))
        (fun _ _ isCrop => visible_of_not_isHidden (crop_last isCrop))
      refine ⟨iff_of_false visible.trimStart.trimEnd.ne_nil nonempty, fun _ => ?_⟩
      rw [isKept, occurrences_ended each, sameLength]

end Text

end ManagementShell

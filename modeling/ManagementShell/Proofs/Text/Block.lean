import ManagementShell.Proofs.Text.Paragraph

/-
This file shows that a text has paragraphs to be seen at both of its ends if there is something to be
seen on both sides of each of its blank lines.
-/

namespace ManagementShell.Text

theorem EndsVisible.visible {text : Text} (ends : EndsVisible text) (nonempty : text ≠ []) :
    Visible text :=
  ⟨text.getLast nonempty, List.getLast_mem nonempty, ends _ (List.getLast_mem_getLast? nonempty)⟩

/-- The text neither begins nor ends with a line feed, and there is something to be seen before and
after each of its blank lines. -/
structure IsBlock (text : Text) : Prop where
  nonempty : text ≠ []
  start : '\n' ∉ text.head?
  stop : '\n' ∉ text.getLast?
  around : ∀ front back, text = front ++ '\n' :: '\n' :: back → Visible front ∧ Visible back

namespace IsBlock

variable {text other front : Text}

theorem line (nonempty : text ≠ []) (single : '\n' ∉ text) : IsBlock text where
  nonempty := nonempty
  start isHead := single (List.mem_of_mem_head? isHead)
  stop isLast := single (List.mem_of_mem_getLast? isLast)
  around := by
    rintro front back rfl
    simp at single

/-- A text of several lines is a block if something stands before it on its first line. -/
theorem entry (single : '\n' ∉ front) (visible : Visible front) (nonempty : text ≠ [])
    (trimmed : Trimmed text) : IsBlock (front ++ text) where
  nonempty := List.append_ne_nil_of_left_ne_nil visible.ne_nil _
  start isHead := by
    rw [List.head?_append_of_ne_nil _ visible.ne_nil] at isHead
    exact single (List.mem_of_mem_head? isHead)
  stop isLast := by
    rw [List.getLast?_append_of_ne_nil _ nonempty] at isLast
    exact absurd (trimmed.last _ isLast) (by decide)
  around before after split := by
    obtain ⟨middle, rfl, isText⟩ | ⟨middle, rfl, isAfter⟩ := List.append_eq_append_iff.mp split
    · have ends : EndsVisible ('\n' :: '\n' :: after) := fun last isLast =>
        trimmed.last last (isText ▸ List.mem_getLast?_append_of_mem_getLast? isLast)
      have visibleAfter := ends.visible (List.cons_ne_nil _ _)
      rw [visible_lineFeed_cons, visible_lineFeed_cons] at visibleAfter
      exact ⟨visible.append_right _, visibleAfter⟩
    · cases middle with
      | nil =>
          have visibleText := trimmed.last.visible nonempty
          rw [← List.nil_append text, ← isAfter, visible_lineFeed_cons, visible_lineFeed_cons]
            at visibleText
          exact ⟨by simpa using visible, visibleText⟩
      | cons character middle =>
          obtain ⟨rfl, -⟩ := List.cons.inj isAfter
          simp at single

/-- A line feed between two blocks makes no blank line. -/
theorem join (first : IsBlock text) (second : IsBlock other) : IsBlock (text ++ '\n' :: other) where
  nonempty := List.append_ne_nil_of_left_ne_nil first.nonempty _
  start isHead := first.start (by rwa [List.head?_append_of_ne_nil _ first.nonempty] at isHead)
  stop isLast := by
    rw [← List.singleton_append, ← List.append_assoc,
      List.getLast?_append_of_ne_nil _ second.nonempty] at isLast
    exact second.stop isLast
  around front back split := by
    -- A blank line lies in one of the blocks, since neither has a line feed next to the one between.
    obtain ⟨middle, rfl, isOther⟩ | ⟨middle, rfl, isBack⟩ := List.append_eq_append_iff.mp split
    · cases middle with
      | nil => exact absurd ((List.cons.inj isOther).2 ▸ rfl) second.start
      | cons character middle =>
          obtain ⟨rfl, rfl⟩ := List.cons.inj isOther
          obtain ⟨before, after⟩ := second.around middle back rfl
          exact ⟨(visible_lineFeed_cons.mpr before).append_left _, after⟩
    · match middle with
      | [] => exact absurd ((List.cons.inj isBack).2 ▸ rfl) second.start
      | [character] =>
          obtain ⟨rfl, -⟩ := List.cons.inj isBack
          exact absurd List.getLast?_concat first.stop
      | character :: next :: middle =>
          obtain ⟨rfl, isRest⟩ := List.cons.inj isBack
          obtain ⟨rfl, rfl⟩ := List.cons.inj isRest
          obtain ⟨before, after⟩ := first.around front middle rfl
          exact ⟨before, after.append_right _⟩

end IsBlock

namespace HasParagraphs

variable {paragraphs : List Text} {text line : Text}

/-- A line without a blank line after it belongs to the first paragraph of what follows. -/
theorem prepend (nonempty : line ≠ []) (single : '\n' ∉ line) (parts : HasParagraphs paragraphs text) :
    ∃ others, HasParagraphs others (line ++ '\n' :: text) := by
  cases parts with
  | none => exact ⟨_, .last (.line nonempty single)⟩
  | feed later => exact ⟨_, .more (.line nonempty single) later⟩
  | @last paragraph isParagraph =>
      refine ⟨[line ++ '\n' :: paragraph], ?_⟩
      simpa using HasParagraphs.last (.more nonempty single isParagraph)
  | @more paragraph text paragraphs isParagraph later =>
      refine ⟨(line ++ '\n' :: paragraph) :: paragraphs, ?_⟩
      simpa using HasParagraphs.more (.more nonempty single isParagraph) later

theorem exists_of_line (single : '\n' ∉ line) (text : Text) :
    ∃ paragraphs, HasParagraphs paragraphs (line ++ text ++ ['\n']) := by
  induction text generalizing line with
  | nil =>
      rcases eq_or_ne line [] with rfl | nonempty
      · exact ⟨[], .feed .none⟩
      · exact ⟨[line], by simpa using HasParagraphs.last (.line nonempty single)⟩
  | cons character rest inductionHypothesis =>
      by_cases isFeed : character = '\n'
      · subst isFeed
        obtain ⟨paragraphs, parts⟩ := inductionHypothesis List.not_mem_nil
        rcases eq_or_ne line [] with rfl | nonempty
        · exact ⟨paragraphs, .feed parts⟩
        · simpa using parts.prepend nonempty single
      · have longer : '\n' ∉ line ++ [character] := by simpa [single] using Ne.symm isFeed
        simpa using inductionHypothesis longer

/-- The text goes on after a blank line, since it does not end with one. -/
theorem exists_inside {front rest : Text} (stop : '\n' ∉ text.getLast?)
    (isWhole : text ++ ['\n'] = front ++ '\n' :: '\n' :: rest) :
    ∃ inside, rest = inside ++ ['\n'] ∧ text = front ++ '\n' :: '\n' :: inside := by
  rcases List.eq_nil_or_concat' rest with rfl | ⟨inside, last, rfl⟩
  · have split : text ++ ['\n'] = (front ++ ['\n']) ++ ['\n'] := by simpa using isWhole
    exact absurd (List.append_cancel_right split ▸ List.getLast?_concat) stop
  · have split : text ++ ['\n'] = (front ++ '\n' :: '\n' :: inside) ++ [last] := by simpa using isWhole
    obtain ⟨isText, isLast⟩ := List.append_inj' split rfl
    obtain ⟨rfl, -⟩ := List.cons.inj isLast
    exact ⟨inside, rfl, isText⟩

theorem visible_head (block : IsBlock text) (visible : Visible text)
    (parts : HasParagraphs paragraphs (text ++ ['\n'])) :
    ∀ first ∈ paragraphs.head?, Visible first := by
  generalize isWhole : text ++ ['\n'] = whole at parts
  cases parts with
  | none => exact fun _ isHead => by cases isHead
  | feed later =>
      have isHead := congrArg List.head? isWhole
      rw [List.head?_append_of_ne_nil _ block.nonempty] at isHead
      exact absurd isHead block.start
  | last isParagraph =>
      rintro _ ⟨⟩
      exact List.append_cancel_right isWhole ▸ visible
  | more isParagraph later =>
      rintro _ ⟨⟩
      obtain ⟨inside, -, isText⟩ := exists_inside block.stop isWhole
      exact (block.around _ _ isText).1

/-- What follows a blank line has something to be seen, so the paragraphs go on up to the last one that
has. -/
theorem exists_visible_last (stop : '\n' ∉ text.getLast?) (visible : Visible text)
    (after : ∀ front back, text = front ++ '\n' :: '\n' :: back → Visible back)
    (parts : HasParagraphs paragraphs (text ++ ['\n'])) :
    ∃ last ∈ paragraphs.getLast?, Visible last := by
  generalize isWhole : text ++ ['\n'] = whole at parts
  induction parts generalizing text with
  | none => simp at isWhole
  | feed later inductionHypothesis =>
      obtain ⟨first, text, rfl⟩ := List.exists_cons_of_ne_nil visible.ne_nil
      obtain ⟨rfl, isRest⟩ := List.cons.inj isWhole
      refine inductionHypothesis (fun isLast => stop ?_) (visible_lineFeed_cons.mp visible)
        (fun front back isText => after ('\n' :: front) back (isText ▸ rfl)) isRest
      exact @List.mem_getLast?_append_of_mem_getLast? _ ['\n'] _ _ isLast
  | last isParagraph => exact ⟨_, rfl, List.append_cancel_right isWhole ▸ visible⟩
  | @more paragraph rest paragraphs isParagraph later inductionHypothesis =>
      obtain ⟨inside, rfl, rfl⟩ := exists_inside stop isWhole
      obtain ⟨last, isLast, visibleLast⟩ := inductionHypothesis
        (fun isLast => stop (List.mem_getLast?_append_of_mem_getLast?
          (@List.mem_getLast?_append_of_mem_getLast? _ ['\n', '\n'] _ _ isLast)))
        (after paragraph inside rfl)
        (fun front back isInside => after (paragraph ++ '\n' :: '\n' :: front) back (by simp [isInside]))
        rfl
      exact ⟨last, @List.mem_getLast?_append_of_mem_getLast? _ [paragraph] _ _ isLast, visibleLast⟩

end HasParagraphs

/-- The first and the last paragraph of a block that shows something are to be seen. -/
theorem IsBlock.exists_paragraphs {text : Text} (block : IsBlock text) (visible : Visible text) :
    ∃ paragraphs, HasParagraphs paragraphs (text ++ ['\n']) ∧
      (∀ first ∈ paragraphs.head?, Visible first) ∧ ∀ last ∈ paragraphs.getLast?, Visible last := by
  obtain ⟨paragraphs, parts⟩ := HasParagraphs.exists_of_line List.not_mem_nil text
  obtain ⟨last, isLast, visibleLast⟩ := parts.exists_visible_last block.stop visible
    fun front back split => (block.around front back split).2
  exact ⟨paragraphs, parts, parts.visible_head block visible, fun other isOther =>
    Option.mem_unique isLast isOther ▸ visibleLast⟩

end ManagementShell.Text

import ManagementShell.Proofs.Text.Blank
import ManagementShell.Proofs.Text.Quoting
import Mathlib.Algebra.GroupWithZero.Nat

/-
This file shows how a line is split into words: words that were quoted are split off again, and a
word that begins a line as it is, with a blank behind, was typed without quotes. So what stands
behind it are the other words.
-/

namespace ManagementShell.Text
open Quoting

variable {word text : Text}

theorem words?_separator {character : Char} (separates : isSeparator character = true)
    (rest : Text) : words? (character :: rest) = words? rest := by
  simp [words?, wordsFrom, readCharacter, separates]

theorem wordsFrom_separator {character : Char} (separates : isSeparator character = true)
    (word rest : Text) : wordsFrom .plain word (character :: rest) =
      (words? rest).map (word :: ·) := by
  simp [words?, wordsFrom, readCharacter, separates]

theorem wordsFrom_ordinary (ordinary : ∀ character ∈ text, isOrdinary character = true)
    (begun rest : Text) :
    wordsFrom .plain begun (text ++ rest) = wordsFrom .plain (begun ++ text) rest := by
  induction text generalizing begun with
  | nil => simp
  | cons character text inductionHypothesis =>
      rw [List.forall_mem_cons] at ordinary
      rw [List.cons_append, Outside.ordinary (.inr rfl) ordinary.1, inductionHypothesis ordinary.2]
      simp

/-- In single quotes every character stands for itself; a quote is written outside of them. -/
theorem wordsFrom_quoted (word begun rest : Text) :
    wordsFrom .single begun (word.replaceAll "'" "'\\''" ++ '\'' :: rest) =
      wordsFrom .plain (begun ++ word) rest := by
  induction word generalizing begun with
  | nil => simp [replaceAll, replaceFrom, wordsFrom, readCharacter]
  | cons character word inductionHypothesis =>
      by_cases isQuote : character = '\''
      · have found : replaceAll ('\'' :: word) "'" "'\\''" =
            '\'' :: '\\' :: '\'' :: '\'' :: replaceAll word "'" "'\\''" :=
          replaceAll_found '\'' "'\\''" word
        have escaped (later : Text) :
            wordsFrom .single begun ('\'' :: '\\' :: '\'' :: '\'' :: later) =
              wordsFrom .single (begun ++ ['\'']) later := by
          simp [wordsFrom, readCharacter, isSeparator]
        rw [isQuote, found, List.cons_append, List.cons_append, List.cons_append, List.cons_append,
          escaped, inductionHypothesis, List.append_assoc, List.singleton_append]
      · have passed : replaceAll (character :: word) "'" "'\\''" =
            character :: replaceAll word "'" "'\\''" := replaceAll_passed isQuote _ _
        rw [passed, List.cons_append, wordsFrom, readCharacter, if_neg isQuote]
        dsimp only
        rw [inductionHypothesis, List.append_assoc, List.singleton_append]

/-- Whatever stands behind it, a quoted word is read as the word. -/
theorem words?_quote (word rest : Text) :
    words? (quote word ++ rest) = wordsFrom .plain word rest := by
  unfold quote words?
  split
  · have written : quoted word ++ rest =
        '\'' :: (word.replaceAll "'" "'\\''" ++ '\'' :: rest) := by
      simp [quoted]
    rw [written, Outside.opening (.inl ⟨rfl, rfl⟩), wordsFrom_quoted, List.nil_append]
  · rename_i plain
    rw [not_or, Bool.not_eq_true, List.any_eq_false] at plain
    obtain ⟨first, others, rfl⟩ := List.exists_cons_of_ne_nil plain.1
    have ordinary (character : Char) (member : character ∈ first :: others) :
        isOrdinary character = true :=
      isOrdinary_of_not_isSpecial (by simpa using plain.2 character member)
    rw [List.forall_mem_cons] at ordinary
    rw [List.cons_append, Outside.ordinary (.inl ⟨rfl, rfl⟩) ordinary.1,
      wordsFrom_ordinary ordinary.2]
    simp

theorem unwords_cons_cons (word second : Text) (others : List Text) :
    unwords (word :: second :: others) = quote word ++ ' ' :: unwords (second :: others) := by
  simp [unwords, join, List.intercalate_cons_cons]

/-- A line that was joined from words is split into these words. -/
theorem words?_unwords (words : List Text) : words? (unwords words) = some words := by
  induction words with
  | nil => rfl
  | cons word others inductionHypothesis =>
      cases others with
      | nil =>
          have alone := words?_quote word []
          simpa [unwords, join, wordsFrom, wordsAtEnd] using alone
      | cons second others =>
          rw [unwords_cons_cons, words?_quote, wordsFrom_separator rfl, inductionHypothesis]
          rfl

/-- The characters that are dropped from a word when they quote others. -/
def marks : Text := "'\"\\"

theorem not_mark_of_isSeparator {character : Char} (separates : isSeparator character = true) :
    character ∉ marks := by
  unfold isSeparator at separates
  simp only [marks]
  grind

theorem isBlank_of_isSeparator {character : Char} (separates : isSeparator character = true) :
    isBlank character = true := by
  simp only [isSeparator, Bool.or_eq_true, beq_iff_eq] at separates
  rcases separates with (rfl | rfl) | rfl <;> rfl

/-- The reader is in a word. -/
def Inside (reading : Reading) : Prop := reading ≠ .between ∧ reading ≠ .comment

/-- What the reader of a word does with a character that is no line feed: it ends the word, drops
the character as a mark, or adds it, perhaps with the mark before it. -/
inductive Reads (word : Text) (character : Char) : Reading → Bool × Reading × Text → Prop
  | ends (separates : isSeparator character = true) : Reads word character .plain (true, .between, [])
  | drops {reading next : Reading} (isMark : character ∈ marks) (inside : Inside next)
      (outside : reading = .plain → next ≠ .escapeDouble) :
      Reads word character reading (false, next, word)
  | adds {reading next : Reading} (inside : Inside next) (noEscape : next ≠ .escapeDouble)
      (outside : reading = .plain → next = .plain) :
      Reads word character reading (false, next, word ++ [character])
  | addsBoth : Reads word character .escapeDouble (false, .double, word ++ ['\\', character])

/-- What the reader does with a character that is no separator, before a word. -/
inductive Begins (character : Char) : Bool × Reading × Text → Prop
  | drops {next : Reading} (isMark : character ∈ marks) (inside : Inside next)
      (noEscape : next ≠ .escapeDouble) : Begins character (false, next, [])
  | adds : Begins character (false, .plain, [character])
  | comments : Begins character (false, .comment, [])

theorem readCharacter_begins {character : Char} (visible : isSeparator character = false) :
    Begins character (readCharacter [] character .between) := by
  have quote : '\'' ∈ marks := by decide
  have doubleQuote : '"' ∈ marks := by decide
  have slash : '\\' ∈ marks := by decide
  unfold readCharacter
  grind [Begins, Inside]

theorem readCharacter_reads {character : Char} (sameLine : character ≠ '\n') {reading : Reading}
    (inside : Inside reading) (word : Text) :
    Reads word character reading (readCharacter word character reading) := by
  have quote : '\'' ∈ marks := by decide
  have doubleQuote : '"' ∈ marks := by decide
  have slash : '\\' ∈ marks := by decide
  cases reading <;> unfold readCharacter <;> grind [Reads, Inside]

/-- A comment goes on to the end of its line. -/
theorem wordsFrom_comment_line (sameLine : '\n' ∉ text) : wordsFrom .comment [] text = some [] := by
  induction text with
  | nil => rfl
  | cons character rest inductionHypothesis =>
      rw [List.mem_cons, not_or] at sameLine
      rw [wordsFrom, readCharacter, if_neg (Ne.symm sameLine.1)]
      exact inductionHypothesis sameLine.2

section

variable {reading : Reading} {first : Text} {others : List Text}

/-- The word that the reader is in goes on. -/
theorem prefix_of_wordsFrom (inside : Inside reading) (sameLine : '\n' ∉ text)
    (areWords : wordsFrom reading word text = some (first :: others)) : word <+: first := by
  induction text generalizing reading word with
  | nil =>
      cases reading <;> cases areWords
      · exact List.prefix_refl _
      · exact List.prefix_append _ _
      · exact List.prefix_append _ _
  | cons character rest inductionHypothesis =>
      rw [List.mem_cons, not_or] at sameLine
      have step := readCharacter_reads (Ne.symm sameLine.1) inside word
      rw [wordsFrom] at areWords
      generalize readCharacter word character reading = read at step areWords
      cases step with
      | ends separates =>
          obtain ⟨later, -, isList⟩ := Option.map_eq_some_iff.mp areWords
          cases isList
          exact List.prefix_refl _
      | drops isMark insideNext outside => exact inductionHypothesis insideNext sameLine.2 areWords
      | adds insideNext noEscape outside =>
          exact (List.prefix_append _ _).trans (inductionHypothesis insideNext sameLine.2 areWords)
      | addsBoth =>
          exact (List.prefix_append _ _).trans
            (inductionHypothesis (by simp [Inside]) sameLine.2 areWords)

/-- The word that the reader is in goes on with the ending; the line up to the reader is the word so
far with the characters behind it, so that the reader is ahead of the word by these characters. Then
the line does not begin with the word and a blank: each character that is added to the word is the
first of those behind it, and so is a mark as they all are. -/
theorem not_prefix_of_behind {behind ending : Text} {blank : Char} (noMark : blank ∉ marks)
    (inside : Inside reading) (sameLine : '\n' ∉ text) (areMarks : behind ⊆ marks)
    (nonempty : behind ≠ []) (two : reading = .escapeDouble → 2 ≤ behind.length)
    (areWords : wordsFrom reading word text = some ((word ++ ending) :: others)) :
    ¬ending ++ [blank] <+: behind ++ text := by
  induction text generalizing reading word behind ending with
  | nil =>
      intro starts
      rw [List.append_nil] at starts
      exact noMark (areMarks (starts.subset (by simp)))
  | cons character rest inductionHypothesis =>
      intro starts
      obtain ⟨next, waiting, rfl⟩ := List.exists_cons_of_ne_nil nonempty
      have waitingMarks : waiting ⊆ marks := fun _ member => areMarks (.tail _ member)
      rw [List.mem_cons, not_or] at sameLine
      have step := readCharacter_reads (Ne.symm sameLine.1) inside word
      rw [wordsFrom] at areWords
      generalize readCharacter word character reading = read at step areWords
      cases step with
      | ends separates =>
          obtain ⟨later, -, isList⟩ := Option.map_eq_some_iff.mp areWords
          obtain rfl : ending = [] := by simpa using (List.cons.inj isList).1
          have isNext : blank = next := (List.cons_prefix_cons.mp starts).1
          exact noMark (areMarks (isNext ▸ List.mem_cons_self))
      | drops isMark insideNext outside =>
          have marksToo : (next :: waiting) ++ [character] ⊆ marks :=
            List.append_subset.mpr ⟨areMarks, by simpa using isMark⟩
          have startsToo : ending ++ [blank] <+: ((next :: waiting) ++ [character]) ++ rest := by
            simpa using starts
          exact inductionHypothesis insideNext sameLine.2 marksToo (by simp) (by simp) areWords
            startsToo
      | @adds _ after insideNext noEscape outside =>
          obtain ⟨later, isEnding⟩ := prefix_of_wordsFrom insideNext sameLine.2 areWords
          obtain rfl : character :: later = ending := by simpa using isEnding
          obtain ⟨rfl, startsLater⟩ := List.cons_prefix_cons.mp starts
          have marksToo : waiting ++ [character] ⊆ marks :=
            List.append_subset.mpr ⟨waitingMarks, by simpa using areMarks (.head _)⟩
          have startsToo : later ++ [blank] <+: (waiting ++ [character]) ++ rest := by
            simpa using startsLater
          have areWordsToo : wordsFrom after (word ++ [character]) rest =
              some ((word ++ [character] ++ later) :: others) := by
            simpa using areWords
          exact inductionHypothesis insideNext sameLine.2 marksToo (by simp)
            (fun escape => absurd escape noEscape) areWordsToo startsToo
      | addsBoth =>
          have insideNext : Inside .double := ⟨by decide, by decide⟩
          obtain ⟨later, isEnding⟩ := prefix_of_wordsFrom insideNext sameLine.2 areWords
          obtain rfl : '\\' :: character :: later = ending := by simpa using isEnding
          obtain ⟨rfl, startsLater⟩ := List.cons_prefix_cons.mp starts
          cases waiting with
          | nil => simp at two
          | cons second waiting =>
              obtain ⟨rfl, startsLast⟩ := List.cons_prefix_cons.mp startsLater
              rw [List.cons_subset] at waitingMarks
              have marksToo : waiting ++ [character] ⊆ marks :=
                List.append_subset.mpr ⟨waitingMarks.2, by simpa using waitingMarks.1⟩
              have startsToo : later ++ [blank] <+: (waiting ++ [character]) ++ rest := by
                simpa using startsLast
              have areWordsToo : wordsFrom .double (word ++ ['\\', character]) rest =
                  some ((word ++ ['\\', character] ++ later) :: others) := by
                simpa using areWords
              exact inductionHypothesis insideNext sameLine.2 marksToo (by simp)
                (fun escape => by cases escape) areWordsToo startsToo

/-- What is typed plainly after the word so far ends where the word ends. -/
theorem words?_behind_plain {ending rest : Text} {blank : Char}
    (separates : isSeparator blank = true) (sameLine : '\n' ∉ ending ++ blank :: rest)
    (areWords : wordsFrom .plain word (ending ++ blank :: rest) =
      some ((word ++ ending) :: others)) : words? rest = some others := by
  have noMark := not_mark_of_isSeparator separates
  induction ending generalizing word with
  | nil =>
      rw [List.nil_append, wordsFrom_separator separates] at areWords
      obtain ⟨later, areLater, isList⟩ := Option.map_eq_some_iff.mp areWords
      rw [areLater, (List.cons.inj isList).2]
  | cons character ending inductionHypothesis =>
      rw [List.cons_append, List.mem_cons, not_or] at sameLine
      have inside : Inside .plain := ⟨by decide, by decide⟩
      have step := readCharacter_reads (Ne.symm sameLine.1) inside word
      rw [List.cons_append, wordsFrom] at areWords
      generalize isRead : readCharacter word character .plain = read at step areWords
      cases step with
      | ends _ =>
          obtain ⟨later, -, isList⟩ := Option.map_eq_some_iff.mp areWords
          have longer := congrArg List.length (List.cons.inj isList).1
          simp at longer
      | drops isMark insideNext outside =>
          -- From here on the reader is ahead of the word by this mark.
          have ahead := not_prefix_of_behind noMark insideNext sameLine.2 (by simpa using isMark)
            (List.cons_ne_nil character []) (fun escape => absurd escape (outside rfl)) areWords
          exact absurd ⟨rest, by simp⟩ ahead
      | adds insideNext noEscape outside =>
          obtain rfl := outside rfl
          have areWordsToo : wordsFrom .plain (word ++ [character]) (ending ++ blank :: rest) =
              some ((word ++ [character] ++ ending) :: others) := by
            simpa using areWords
          exact inductionHypothesis sameLine.2 areWordsToo

/-- A word that begins a line as it is, with a separator behind, was typed without quotes: what
stands behind it are the other words. -/
theorem words?_behind {rest : Text} {blank : Char} (separates : isSeparator blank = true)
    (starts : StartsVisible (first ++ blank :: rest)) (sameLine : '\n' ∉ first ++ blank :: rest)
    (areWords : words? (first ++ blank :: rest) = some (first :: others)) :
    words? rest = some others := by
  cases first with
  | nil =>
      have visible : isBlank blank = false := starts blank rfl
      rw [isBlank_of_isSeparator separates] at visible
      cases visible
  | cons character ending =>
      have visible : isSeparator character = false := by
        by_contra separates
        have visible : isBlank character = false := starts character rfl
        rw [isBlank_of_isSeparator (by simpa using separates)] at visible
        cases visible
      rw [List.cons_append, List.mem_cons, not_or] at sameLine
      have step := readCharacter_begins visible
      rw [List.cons_append, words?, wordsFrom] at areWords
      generalize readCharacter [] character .between = read at step areWords
      cases step with
      | drops isMark insideNext noEscape =>
          have ahead := not_prefix_of_behind (not_mark_of_isSeparator separates) insideNext
            sameLine.2 (by simpa using isMark) (List.cons_ne_nil character [])
            (fun escape => absurd escape noEscape) areWords
          exact absurd ⟨rest, by simp⟩ ahead
      | adds => exact words?_behind_plain separates sameLine.2 areWords
      | comments =>
          have noWords := wordsFrom_comment_line sameLine.2
          dsimp only at areWords
          rw [noWords] at areWords
          cases areWords

end

/-- The only blanks of the text are spaces and tabs. -/
def IsSpaced (text : Text) : Prop :=
  ∀ character ∈ text, isBlank character = true → character = ' ' ∨ character = '\t'

instance (text : Text) : Decidable (IsSpaced text) :=
  List.decidableBAll _ text

theorem IsSpaced.subset {part : Text} (spaced : IsSpaced text) (among : part ⊆ text) :
    IsSpaced part := fun character member => spaced character (among member)

theorem IsSpaced.sameLine (spaced : IsSpaced text) : '\n' ∉ text := fun member => by
  cases spaced '\n' member rfl with
  | inl isSpace => cases isSpace
  | inr isTab => cases isTab

theorem IsSpaced.isSeparator (spaced : IsSpaced text) {character : Char} (member : character ∈ text)
    (blank : isBlank character = true) : isSeparator character = true := by
  rcases spaced character member blank with rfl | rfl <;> rfl

theorem words?_trimStart (spaced : IsSpaced text) : words? (trimStart text) = words? text := by
  induction text with
  | nil => rfl
  | cons character rest inductionHypothesis =>
      by_cases blank : isBlank character = true
      · have separates := spaced.isSeparator List.mem_cons_self blank
        have trimmed : trimStart (character :: rest) = trimStart rest := by simp [trimStart, blank]
        rw [trimmed, words?_separator separates,
          inductionHypothesis (spaced.subset (List.subset_cons_self _ _))]
      · rw [trimStart_of_head (by simpa using blank)]

theorem readCharacter_lacks {c character : Char} (slash : c ≠ '\\') (lacks : c ∉ word)
    (differs : c ≠ character) (reading : Reading) :
    c ∉ (readCharacter word character reading).2.2 := by
  cases reading <;> unfold readCharacter <;> grind

theorem wordsFrom_lacks {c : Char} (slash : c ≠ '\\') {reading : Reading} {words : List Text}
    (isWords : wordsFrom reading word text = some words) (lacks : c ∉ word)
    (lacksText : c ∉ text) : ∀ part ∈ words, c ∉ part := by
  induction text generalizing reading word words with
  | nil => cases reading <;> cases isWords <;> simp [lacks, slash]
  | cons character rest inductionHypothesis =>
      rw [List.mem_cons, not_or] at lacksText
      have begun := readCharacter_lacks slash lacks lacksText.1 reading
      unfold wordsFrom at isWords
      split at isWords
      · rename_i next start isRead
        rw [isRead] at begun
        obtain ⟨later, isLater, rfl⟩ := Option.map_eq_some_iff.mp isWords
        simp only [List.mem_cons, forall_eq_or_imp]
        exact ⟨lacks, inductionHypothesis isLater begun lacksText.2⟩
      · rename_i next start isRead
        rw [isRead] at begun
        exact inductionHypothesis isWords begun lacksText.2

theorem IsSpaced.words (spaced : IsSpaced text) {words : List Text}
    (areWords : words? text = some words) : ∀ word ∈ words, IsSpaced word := by
  intro word member character inside blank
  have slash : character ≠ '\\' := by
    rintro rfl
    cases blank
  by_contra other
  exact wordsFrom_lacks slash areWords List.not_mem_nil
    (fun inText => other (spaced character inText blank)) word member inside

theorem IsSpaced.quote (spaced : IsSpaced word) : IsSpaced (quote word) := by
  have quotes : IsSpaced ("'\\''" : Text) := by decide
  unfold Text.quote
  split
  · intro character member
    simp only [quoted, List.mem_append] at member
    rcases member with (isQuote | inside) | isQuote
    · exact quotes character (List.mem_cons.mpr (.inl (List.mem_singleton.mp isQuote)))
    · rcases List.mem_append.mp (replaceAll_subset _ _ _ inside) with inWord | inQuotes
      · exact spaced character inWord
      · exact quotes character inQuotes
    · exact quotes character (List.mem_cons.mpr (.inl (List.mem_singleton.mp isQuote)))
  · exact spaced

/-- A quoted word begins and ends with a quote, or with characters that are not special. -/
theorem IsSpaced.trimmed_quote (spaced : IsSpaced word) : Trimmed (Text.quote word) := by
  unfold Text.quote
  split
  · constructor
    · intro character isHead
      cases isHead
      rfl
    · intro character isLast
      rw [quoted, List.getLast?_append_of_ne_nil _ (by decide)] at isLast
      cases isLast
      rfl
  · rename_i plain
    rw [not_or, Bool.not_eq_true, List.any_eq_false] at plain
    have visible (character : Char) (member : character ∈ word) : isBlank character = false := by
      by_contra blank
      refine plain.2 character member ?_
      rcases spaced character member (by simpa using blank) with rfl | rfl <;> rfl
    exact ⟨fun _ isHead => visible _ (List.mem_of_mem_head? isHead),
      fun _ isLast => visible _ (List.mem_of_mem_getLast? isLast)⟩

theorem quote_ne_nil (word : Text) : quote word ≠ [] := by
  unfold quote
  split
  · simp [quoted]
  · rename_i plain
    exact fun empty => plain (.inl empty)

/-- A line that was joined from words has no blanks at its ends. -/
theorem unwords_spaced {words : List Text} (spaced : ∀ word ∈ words, IsSpaced word) :
    IsSpaced (unwords words) ∧ Trimmed (unwords words) := by
  induction words with
  | nil => exact ⟨nofun, nofun, nofun⟩
  | cons word others inductionHypothesis =>
      rw [List.forall_mem_cons] at spaced
      cases others with
      | nil =>
          have alone : unwords [word] = quote word := by simp [unwords, join]
          rw [alone]
          exact ⟨spaced.1.quote, spaced.1.trimmed_quote⟩
      | cons second others =>
          obtain ⟨spacedLater, trimmedLater⟩ := inductionHypothesis spaced.2
          rw [unwords_cons_cons]
          refine ⟨?_, ?_, ?_⟩
          · intro character member
            rcases List.mem_append.mp member with inFirst | inLater
            · exact spaced.1.quote character inFirst
            · rcases List.mem_cons.mp inLater with isSpace | inLater
              · exact fun _ => .inl isSpace
              · exact spacedLater character inLater
          · intro character isHead
            rw [List.head?_append_of_ne_nil _ (quote_ne_nil word)] at isHead
            exact spaced.1.trimmed_quote.head character isHead
          · intro character isLast
            have nonempty : unwords (second :: others) ≠ [] := by
              intro empty
              have areWords := words?_unwords (second :: others)
              rw [empty] at areWords
              cases areWords
            rw [List.getLast?_append_of_ne_nil _ (List.cons_ne_nil _ _),
              List.getLast?_cons_of_ne_nil nonempty] at isLast
            exact trimmedLater.last character isLast

end ManagementShell.Text

import ManagementShell.Proofs.Text.Cut
import ManagementShell.Proofs.Text.Replace
import ManagementShell.Text.Quoting

/-
This file shows that a line holds a text whenever one of its words does, if the pieces that the words
are put together from are kept apart by characters that the text lacks.
-/

namespace ManagementShell.Text.Quoting

/-- The character stands for itself outside of quotes. -/
def isOrdinary (character : Char) : Bool :=
  !(isSeparator character || character == '\'' || character == '"' || character == '\\' ||
    character == '#')

/-- A position in a line: where a piece of a word may begin, in a piece without quotes, in one with
quotes, and behind it. -/
inductive Position where
  | apart
  | plain
  | quoted
  | behind
  deriving DecidableEq

/-- From the position on, the pieces of a word are kept apart by characters that the secret lacks. -/
inductive Separated (secret : Text) : Position → Text → Prop
  | ending {position} (outside : position ≠ .quoted) : Separated secret position []
  | separator {position character rest} (outside : position ≠ .quoted)
      (separates : isSeparator character = true) (later : Separated secret .apart rest) :
      Separated secret position (character :: rest)
  | ordinary {position character rest} (unquoted : position = .apart ∨ position = .plain)
      (isOrdinary : isOrdinary character = true) (later : Separated secret .plain rest) :
      Separated secret position (character :: rest)
  | foreign {position character rest} (outside : position ≠ .quoted)
      (isOrdinary : isOrdinary character = true) (lacks : character ∉ secret)
      (later : Separated secret .apart rest) : Separated secret position (character :: rest)
  | opening {rest} (later : Separated secret .quoted rest) : Separated secret .apart ('\'' :: rest)
  | quoted {character rest} (differs : character ≠ '\'') (later : Separated secret .quoted rest) :
      Separated secret .quoted (character :: rest)
  | closing {rest} (later : Separated secret .behind rest) : Separated secret .quoted ('\'' :: rest)
  | escape {rest} (later : Separated secret .quoted rest) :
      Separated secret .behind ('\\' :: '\'' :: '\'' :: rest)

variable {secret : Text}

theorem isOrdinary_of_not_isSpecial {character : Char} (plain : isSpecial character = false) :
    isOrdinary character = true := by
  simp only [isSpecial, decide_eq_false_iff_not] at plain
  simp only [isOrdinary, isSeparator, Bool.not_eq_true', Bool.or_eq_false_iff, beq_eq_false_iff_ne]
  have other {special : Char} (member : special ∈ ("|&;<>()$`\\\"' \t\n*?[#~=%" : Text)) :
      character ≠ special := fun same => plain (same ▸ member)
  exact ⟨⟨⟨⟨⟨⟨other (by decide), other (by decide)⟩, other (by decide)⟩, other (by decide)⟩,
    other (by decide)⟩, other (by decide)⟩, other (by decide)⟩

/-- A word without special characters is one piece. -/
theorem separated_plain {word rest : Text} (plain : word.any isSpecial = false)
    {position : Position} (unquoted : position = .apart ∨ position = .plain)
    (later : ∀ position ≠ .quoted, Separated secret position rest) :
    Separated secret position (word ++ rest) := by
  induction word generalizing position with
  | nil => exact later position (by rcases unquoted with rfl | rfl <;> decide)
  | cons character word inductionHypothesis =>
      rw [List.any_cons, Bool.or_eq_false_iff] at plain
      exact .ordinary unquoted (isOrdinary_of_not_isSpecial plain.1)
        (inductionHypothesis plain.2 (.inr rfl))

/-- In quotes, the pieces of a word are kept apart by its single quotes. -/
theorem separated_quoted (word : Text) {rest : Text} (later : Separated secret .behind rest) :
    Separated secret .quoted (word.replaceAll "'" "'\\''" ++ '\'' :: rest) := by
  induction word with
  | nil => exact .closing later
  | cons character word inductionHypothesis =>
      by_cases isQuote : character = '\''
      · rw [isQuote]
        have found : replaceAll ('\'' :: word) "'" "'\\''" =
            '\'' :: '\\' :: '\'' :: '\'' :: replaceAll word "'" "'\\''" :=
          replaceAll_found '\'' "'\\''" word
        rw [found]
        exact .closing (.escape inductionHypothesis)
      · have passed : replaceAll (character :: word) "'" "'\\''" =
            character :: replaceAll word "'" "'\\''" := replaceAll_passed isQuote _ _
        rw [passed]
        exact .quoted isQuote inductionHypothesis

theorem separated_quote (word : Text) {rest : Text}
    (later : ∀ position ≠ .quoted, Separated secret position rest) :
    Separated secret .apart (quote word ++ rest) := by
  unfold quote
  split
  · have written : quoted word ++ rest =
        '\'' :: (word.replaceAll "'" "'\\''" ++ '\'' :: rest) := by
      simp [quoted]
    rw [written]
    exact .opening (separated_quoted word (later .behind (by decide)))
  · rename_i plain
    rw [not_or, Bool.not_eq_true] at plain
    exact separated_plain plain.2 (.inl rfl) later

/-- A line that is joined from words is separated by their quotes, whatever the secret is. -/
theorem separated_unwords (secret : Text) (words : List Text) :
    Separated secret .apart (unwords words) := by
  unfold unwords join
  induction words with
  | nil => exact .ending (by decide)
  | cons word rest inductionHypothesis =>
      cases rest with
      | nil =>
          have alone := separated_quote word fun position outside =>
            (Separated.ending outside : Separated secret position [])
          simpa using alone
      | cons second others =>
          rw [List.map_cons, List.map_cons, List.intercalate_cons_cons, List.append_assoc]
          exact separated_quote word fun position outside =>
            .separator outside (by decide) inductionHypothesis

/-- The reader is between words, or in one that has begun without quotes. -/
def Outside (reading : Reading) (word : Text) : Prop :=
  (reading = .between ∧ word = []) ∨ reading = .plain

section

variable {reading : Reading} {word rest : Text} {character : Char}

theorem Outside.ordinary (outside : Outside reading word)
    (isOrdinary : isOrdinary character = true) :
    wordsFrom reading word (character :: rest) = wordsFrom .plain (word ++ [character]) rest := by
  simp only [Quoting.isOrdinary, Bool.not_eq_true', Bool.or_eq_false_iff, beq_eq_false_iff_ne]
    at isOrdinary
  rcases outside with ⟨rfl, rfl⟩ | rfl
  · simp [wordsFrom, readCharacter, isOrdinary]
  · simp [wordsFrom, readCharacter, isOrdinary]

theorem Outside.opening (outside : Outside reading word) :
    wordsFrom reading word ('\'' :: rest) = wordsFrom .single word rest := by
  rcases outside with ⟨rfl, rfl⟩ | rfl
  · simp [wordsFrom, readCharacter, isSeparator]
  · simp [wordsFrom, readCharacter, isSeparator]

/-- A separator ends the word, if there is one. -/
theorem Outside.separator (outside : Outside reading word)
    (separates : isSeparator character = true) {words : List Text}
    (areWords : wordsFrom reading word (character :: rest) = some words) :
    ∃ others, wordsFrom .between [] rest = some others ∧ words ⊆ word :: others := by
  rcases outside with ⟨rfl, rfl⟩ | rfl
  · simp only [wordsFrom, readCharacter, separates, if_true] at areWords
    exact ⟨words, areWords, List.subset_cons_self _ _⟩
  · simp only [wordsFrom, readCharacter, separates, if_true, Option.map_eq_some_iff] at areWords
    obtain ⟨others, areOthers, rfl⟩ := areWords
    exact ⟨others, areOthers, List.Subset.refl _⟩

theorem Outside.ending (outside : Outside reading word) {words : List Text}
    (areWords : wordsFrom reading word [] = some words) : words ⊆ [word] := by
  rcases outside with ⟨rfl, rfl⟩ | rfl
  · cases areWords
    exact List.nil_subset _
  · cases areWords
    exact List.Subset.refl _

end

/-- The word does not hold the secret and ends with no character of it. -/
structure Clear (secret word : Text) : Prop where
  absent : ¬secret <:+: word
  last : ∀ character ∈ word.getLast?, character ∉ secret

theorem clear_nil (nonempty : secret ≠ []) : Clear secret [] :=
  ⟨fun inside => nonempty (List.eq_nil_of_infix_nil inside), nofun⟩

theorem clear_push (nonempty : secret ≠ []) {word : Text} {character : Char}
    (absent : ¬secret <:+: word) (lacks : character ∉ secret) : Clear secret (word ++ [character]) where
  absent inside := (infix_separated lacks inside).elim absent
    fun nowhere => nonempty (List.eq_nil_of_infix_nil nowhere)
  last other isLast := by
    rw [List.getLast?_concat, Option.mem_some_iff] at isLast
    exact isLast ▸ lacks

/-- No occurrence of the secret goes past the end of a clear text. -/
theorem Clear.append {word rest : Text} (clear : Clear secret word) (absent : ¬secret <:+: rest) :
    ¬secret <:+: word ++ rest := by
  intro inside
  rcases List.infix_append_iff.mp inside with inWord | inRest | ⟨start, remainder, rfl, ends, begins⟩
  · exact clear.absent inWord
  · exact absent inRest
  · rcases List.eq_nil_or_concat start with rfl | ⟨others, last, rfl⟩
    · exact absent begins.isInfix
    · obtain ⟨front, rfl⟩ := ends
      refine clear.last last ?_ (by simp)
      simp

/-- The word is clear up to a piece of the line, which the rest of the line goes on with. -/
def Held (secret word rest : Text) : Prop :=
  ∃ front piece, word = front ++ piece ∧ Clear secret front ∧ ¬secret <:+: piece ++ rest

theorem Clear.held {word rest : Text} (clear : Clear secret word) (absent : ¬secret <:+: rest) :
    Held secret word rest := ⟨word, [], (List.append_nil word).symm, clear, absent⟩

theorem Held.absent {word rest : Text} (held : Held secret word rest) : ¬secret <:+: word := by
  obtain ⟨front, piece, rfl, clear, absent⟩ := held
  exact clear.append fun inside => absent (inside.trans (List.prefix_append _ _).isInfix)

theorem Held.push {word rest : Text} {character : Char}
    (held : Held secret word (character :: rest)) : Held secret (word ++ [character]) rest := by
  obtain ⟨front, piece, rfl, clear, absent⟩ := held
  refine ⟨front, piece ++ [character], List.append_assoc _ _ _, clear, ?_⟩
  rwa [List.append_assoc, List.singleton_append]

/-- What the reader of the line has of a word at the position. -/
def Stands (secret : Text) (reading : Reading) (word rest : Text) : Position → Prop
  | .apart => Outside reading word ∧ Clear secret word
  | .plain => reading = .plain ∧ Held secret word rest
  | .quoted => reading = .single ∧ Held secret word rest
  | .behind => reading = .plain ∧ ¬secret <:+: word

section

variable {position : Position} {reading : Reading} {word rest : Text}

theorem Stands.outside (stands : Stands secret reading word rest position)
    (outside : position ≠ .quoted) : Outside reading word ∧ ¬secret <:+: word := by
  cases position with
  | apart => exact ⟨stands.1, stands.2.absent⟩
  | plain => exact ⟨.inr stands.1, stands.2.absent⟩
  | quoted => exact absurd rfl outside
  | behind => exact ⟨.inr stands.1, stands.2⟩

theorem Stands.held (stands : Stands secret reading word rest position)
    (unquoted : position = .apart ∨ position = .plain) (absent : ¬secret <:+: rest) :
    Held secret word rest := by
  rcases unquoted with rfl | rfl
  · exact stands.2.held absent
  · exact stands.2

end

/-- No word that the reader comes to holds the secret, if the line does not. The induction is on the
rest of the line. -/
theorem Separated.words_lack (nonempty : secret ≠ []) (noQuote : '\'' ∉ secret)
    {position : Position} {text : Text} (separated : Separated secret position text)
    (absent : ¬secret <:+: text) {reading : Reading} {word : Text}
    (stands : Stands secret reading word text position) {words : List Text}
    (areWords : wordsFrom reading word text = some words) :
    ∀ other ∈ words, ¬secret <:+: other := by
  have tail {character : Char} {rest : Text} (absent : ¬secret <:+: character :: rest) :
      ¬secret <:+: rest := fun inside => absent (inside.trans (List.suffix_cons _ _).isInfix)
  induction separated generalizing reading word words with
  | ending outside =>
      obtain ⟨isOutside, lacks⟩ := stands.outside outside
      intro other member
      rw [List.mem_singleton.mp (isOutside.ending areWords member)]
      exact lacks
  | separator outside separates _ inductionHypothesis =>
      obtain ⟨isOutside, lacks⟩ := stands.outside outside
      obtain ⟨others, areOthers, among⟩ := isOutside.separator separates areWords
      have later := inductionHypothesis (tail absent) ⟨.inl ⟨rfl, rfl⟩, clear_nil nonempty⟩ areOthers
      intro other member
      rcases List.mem_cons.mp (among member) with rfl | isLater
      · exact lacks
      · exact later other isLater
  | ordinary unquoted isOrdinary _ inductionHypothesis =>
      have outside : Outside reading word :=
        (stands.outside (by rcases unquoted with rfl | rfl <;> decide)).1
      rw [outside.ordinary isOrdinary] at areWords
      exact inductionHypothesis (tail absent) ⟨rfl, (stands.held unquoted absent).push⟩ areWords
  | foreign outside isOrdinary lacksIt _ inductionHypothesis =>
      obtain ⟨isOutside, lacks⟩ := stands.outside outside
      rw [isOutside.ordinary isOrdinary] at areWords
      exact inductionHypothesis (tail absent) ⟨.inr rfl, clear_push nonempty lacks lacksIt⟩ areWords
  | opening _ inductionHypothesis =>
      rw [stands.1.opening] at areWords
      exact inductionHypothesis (tail absent) ⟨rfl, stands.2.held (tail absent)⟩ areWords
  | quoted differs _ inductionHypothesis =>
      obtain ⟨rfl, held⟩ := stands
      rw [wordsFrom, readCharacter, if_neg differs] at areWords
      exact inductionHypothesis (tail absent) ⟨rfl, held.push⟩ areWords
  | closing _ inductionHypothesis =>
      obtain ⟨rfl, held⟩ := stands
      rw [wordsFrom, readCharacter, if_pos rfl] at areWords
      exact inductionHypothesis (tail absent) ⟨rfl, held.absent⟩ areWords
  | @escape rest _ inductionHypothesis =>
      obtain ⟨rfl, lacks⟩ := stands
      have escaped : wordsFrom .plain word ('\\' :: '\'' :: '\'' :: rest) =
          wordsFrom .single (word ++ ['\'']) rest := by
        simp [wordsFrom, readCharacter, isSeparator]
      rw [escaped] at areWords
      have later := tail (tail (tail absent))
      exact inductionHypothesis later ⟨rfl, (clear_push nonempty lacks noQuote).held later⟩ areWords

end ManagementShell.Text.Quoting

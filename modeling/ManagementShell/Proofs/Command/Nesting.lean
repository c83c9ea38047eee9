import ManagementShell.Command.Reader
import ManagementShell.Proofs.Text.Words

/-
This file shows how a command is read that is around another one: the inner command is read from what
stands behind the first words, which are the remaining words when all blanks are spaces and tabs, and
the depth that the reader is given is always enough.
-/

namespace ManagementShell

namespace Text

/-- The character is neither a separator nor a mark, so that quoting neither adds nor drops it. -/
def isSolid (character : Char) : Bool := decide (character ∉ (" \t\n'\"\\" : Text))

def solidCount (text : Text) : Nat := text.countP isSolid

@[simp] theorem solidCount_nil : solidCount [] = 0 := rfl

@[simp] theorem solidCount_append (front back : Text) :
    solidCount (front ++ back) = solidCount front + solidCount back := List.countP_append

theorem solidCount_cons (character : Char) (rest : Text) :
    solidCount (character :: rest) = solidCount [character] + solidCount rest :=
  solidCount_append [character] rest

theorem solidCount_quote (word : Text) : solidCount (quote word) = solidCount word := by
  have escaped : solidCount (word.replaceAll "'" "'\\''") = solidCount word := by
    induction word with
    | nil => rfl
    | cons character word inductionHypothesis =>
        by_cases isQuote : character = '\''
        · have found : replaceAll ('\'' :: word) "'" "'\\''" =
              "'\\''" ++ replaceAll word "'" "'\\''" := replaceAll_found '\'' "'\\''" word
          rw [isQuote, found, solidCount_append, solidCount_cons '\'', inductionHypothesis]
          rfl
        · have passed : replaceAll (character :: word) "'" "'\\''" =
              character :: replaceAll word "'" "'\\''" := replaceAll_passed isQuote _ _
          rw [passed, solidCount_cons, solidCount_cons character word, inductionHypothesis]
  unfold quote
  split
  · rw [quoted, solidCount_append, solidCount_append, escaped]
    exact Nat.zero_add _
  · rfl

theorem solidCount_unwords (words : List Text) :
    solidCount (unwords words) = (words.map solidCount).sum := by
  induction words with
  | nil => rfl
  | cons word others inductionHypothesis =>
      cases others with
      | nil =>
          have alone : unwords [word] = quote word := by simp [unwords, join]
          simp [alone, solidCount_quote]
      | cons second others =>
          rw [unwords_cons_cons, solidCount_append, solidCount_quote, solidCount_cons,
            inductionHypothesis, List.map_cons, List.sum_cons]
          exact congrArg (solidCount word + ·) (Nat.zero_add _)

/-- A line has the solid characters of its words, and perhaps more in a comment. -/
theorem solidCount_words {reading : Reading} {word text : Text} {words : List Text}
    (areWords : wordsFrom reading word text = some words) :
    (words.map solidCount).sum ≤ solidCount word + solidCount text := by
  induction text generalizing reading word words with
  | nil => cases reading <;> cases areWords <;> simp [solidCount, isSolid]
  | cons character rest inductionHypothesis =>
      have begun : solidCount (readCharacter word character reading).2.2 +
          (if (readCharacter word character reading).1 then solidCount word else 0) ≤
            solidCount word + solidCount [character] := by
        have slash : solidCount ['\\', character] = solidCount [character] := by
          rw [solidCount_cons]
          exact Nat.zero_add _
        cases reading <;> unfold readCharacter <;> grind [solidCount_append, solidCount_nil]
      rw [solidCount_cons]
      unfold wordsFrom at areWords
      split at areWords
      · rename_i next start isRead
        rw [isRead] at begun
        obtain ⟨later, isLater, rfl⟩ := Option.map_eq_some_iff.mp areWords
        have fewer := inductionHypothesis isLater
        simp only [if_true, List.map_cons, List.sum_cons] at begun ⊢
        omega
      · rename_i next start isRead
        rw [isRead] at begun
        have fewer := inductionHypothesis areWords
        simp only [Bool.false_eq_true, if_false] at begun
        omega

end Text

namespace Command
open Text

/-- What is left of a line is joined from the other words, or it is what stands behind the first. -/
theorem solidCount_remainder (all skipped : List Text) (text : Text) :
    remainder all skipped text = unwords all ∨
      solidCount (remainder all skipped text) + (skipped.map solidCount).sum ≤ solidCount text := by
  induction skipped generalizing text with
  | nil => exact .inr (by simp [remainder])
  | cons word skipped inductionHypothesis =>
      rw [remainder]
      split
      · rename_i next rest isAfter
        split
        · refine (inductionHypothesis (trimStart (next :: rest))).imp_right fun fewer => ?_
          rw [← after?_eq_some.mp isAfter, solidCount_append, List.map_cons, List.sum_cons]
          have trimmed : solidCount (trimStart (next :: rest)) ≤ solidCount (next :: rest) :=
            (List.dropWhile_sublist _).countP_le
          omega
        · exact .inl rfl
      · exact .inl rfl

theorem solidCount_tail {text : Text} {words : List Text} (areWords : words? text = some words)
    (count : Nat) :
    solidCount (tail text words count) + ((words.take count).map solidCount).sum ≤
      solidCount text := by
  have whole : (words.map solidCount).sum ≤ solidCount text := by
    simpa using solidCount_words areWords
  have parts : ((words.take count).map solidCount).sum + ((words.drop count).map solidCount).sum =
      (words.map solidCount).sum := by
    rw [← List.sum_append, ← List.map_append, List.take_append_drop]
  have trimmed : solidCount (trimStart text) ≤ solidCount text :=
    (List.dropWhile_sublist _).countP_le
  rcases solidCount_remainder (words.drop count) (words.take count) (trimStart text) with
    joined | behind
  · rw [tail, joined, solidCount_unwords]
    omega
  · rw [tail]
    omega

/-- The words that a command around another one begins with. -/
def opening? : List Text → Option (Wrapper × Nat)
  | first :: second :: others =>
      match Wrapper.read? first with
      | some wrapper => some (wrapper, 1)
      | none =>
          if others = [] then none
          else if toLower first = "if" then some (.conditional second, 2)
          else if toLower first = "context" then some (.context second, 2)
          else none
  | _ => none

/-- A command around another one, and the text that the inner command is read from. -/
def nested? (typed : Text) : Option (Wrapper × Text) :=
  match words? (trim typed) with
  | some words => (opening? words).map fun found => (found.1, tail (trim typed) words found.2)
  | none => none

theorem nested?_eq_some {typed inner : Text} {wrapper : Wrapper} :
    nested? typed = some (wrapper, inner) ↔ ∃ words count, words? (trim typed) = some words ∧
      opening? words = some (wrapper, count) ∧ inner = tail (trim typed) words count := by
  unfold nested?
  cases words? (trim typed) with
  | none => simp
  | some words => simp [@eq_comm Text inner]

section

variable (isScript : Text → Bool) (inner other : Text → Except LineFault Command) (text : Text)

theorem longShorthand_wraps {first : Text} {wrapper : Wrapper}
    (wraps : Wrapper.read? first = some wrapper) (others : List Text) :
    longShorthand? inner text (first :: others) =
      (inner (tail text (first :: others) 1)).map fun command => some (wrapper.around command) := by
  unfold Wrapper.read? at wraps
  split at wraps
  · cases wraps
    rfl
  · cases wraps
    rfl
  · cases wraps

theorem longShorthand_direct {first : Text} (direct : Wrapper.read? first = none)
    (others : List Text) : longShorthand? inner text (first :: others) =
      longShorthand? other text (first :: others) := by
  unfold longShorthand?
  split <;> simp_all [Wrapper.read?]

theorem keywordCommand_direct {words : List Text}
    (direct : ∀ third more, words.drop 2 = third :: more →
      toLower (words.headD []) ≠ "if" ∧ toLower (words.headD []) ≠ "context") :
    keywordCommand isScript inner text words = keywordCommand isScript other text words := by
  have few (usage : Usage) (noMore : words.drop 2 = []) (next : Unit → Except LineFault Command) :
      (checkCount usage words 2 none >>= next) =
        .error (.wrongCount usage (words.headD []) 2 none (words.length - 1)) := by
    have short : ¬2 ≤ words.length - 1 := by
      have length := List.drop_eq_nil_iff.mp noMore
      omega
    simp [checkCount, short, bind, Except.bind]
  unfold keywordCommand
  cases more : words.drop 2 with
  | nil => simp only [few _ more]
  | cons third others =>
      have keywords := direct third others more
      simp only [if_neg keywords.1, if_neg keywords.2]

theorem head_of_keyword {first : Text}
    (isKeyword : toLower first = "if" ∨ toLower first = "context") {character : Char}
    (isHead : first.head? = some character) :
    character.toLower = 'i' ∨ character.toLower = 'c' := by
  have lowered : (toLower first).head? = some character.toLower := by
    rw [toLower, List.head?_map, isHead]
    rfl
  rcases isKeyword with isKeyword | isKeyword
  · rw [isKeyword] at lowered
    exact .inl (Option.some.inj lowered).symm
  · rw [isKeyword] at lowered
    exact .inr (Option.some.inj lowered).symm

theorem not_mem_of_keyword {marks first : Text}
    (others : marks.all (fun mark => mark.toLower != 'i' && mark.toLower != 'c') = true)
    (isKeyword : toLower first = "if" ∨ toLower first = "context") {character : Char}
    (isHead : first.head? = some character) : character ∉ marks := by
  intro isMark
  have isOther := List.all_eq_true.mp others character isMark
  rcases head_of_keyword isKeyword isHead with isLetter | isLetter <;> simp [isLetter] at isOther

/-- A keyword of a command around another one is no shorthand. -/
theorem longShorthand_keyword {first : Text}
    (isKeyword : toLower first = "if" ∨ toLower first = "context") (others : List Text) :
    longShorthand? inner text (first :: others) = .ok none := by
  have head (character : Char) (mark : character ∈ ("$?</\x7b" : Text)) :
      first.head? ≠ some character := fun isHead =>
    not_mem_of_keyword (by decide) isKeyword isHead mark
  unfold longShorthand?
  split <;> simp_all

theorem checkCount_enough (usage : Usage) (first second third : Text) (more : List Text) :
    checkCount usage (first :: second :: third :: more) 2 none = .ok () := by
  simp [checkCount]

theorem keywordCommand_conditional {first : Text} (isKeyword : toLower first = "if")
    (second third : Text) (more : List Text) :
    keywordCommand isScript inner text (first :: second :: third :: more) =
      (inner (tail text (first :: second :: third :: more) 2)).map (.conditional second) := by
  unfold keywordCommand
  simp only [List.headD_cons, isKeyword, checkCount_enough]
  rfl

theorem keywordCommand_context {first : Text} (isKeyword : toLower first = "context")
    (second third : Text) (more : List Text) :
    keywordCommand isScript inner text (first :: second :: third :: more) =
      (inner (tail text (first :: second :: third :: more) 2)).map (.context second) := by
  unfold keywordCommand
  simp only [List.headD_cons, isKeyword, checkCount_enough]
  rfl

/-- The command of a line that is split into words; `inner` reads inner commands. -/
def readWords : List Text → Except LineFault Command
  | [] => .ok .nothing
  | [word] => match shorthand? isScript word with
    | .error fault => .error fault
    | .ok (some command) => .ok command
    | .ok none => keywordCommand isScript inner text [word]
  | words => match longShorthand? inner text words with
    | .error fault => .error fault
    | .ok (some command) => .ok command
    | .ok none => keywordCommand isScript inner text words

/-- A command around another one is read from the inner command. -/
theorem readWords_opening {words : List Text} {wrapper : Wrapper} {count : Nat}
    (opens : opening? words = some (wrapper, count)) :
    readWords isScript inner text words = (inner (tail text words count)).map wrapper.around := by
  unfold opening? at opens
  split at opens
  · rename_i first second others
    rw [readWords.eq_3 _ _ _ _ (by simp) (by simp)]
    split at opens
    · rename_i wraps
      cases opens
      rw [longShorthand_wraps _ _ wraps]
      cases inner (tail text (first :: second :: others) 1) <;> rfl
    · split at opens
      · cases opens
      · rename_i more
        obtain ⟨third, more, rfl⟩ := List.exists_cons_of_ne_nil more
        split at opens
        · rename_i isKeyword
          cases opens
          rw [longShorthand_keyword _ _ (.inl isKeyword),
            keywordCommand_conditional _ _ _ isKeyword]
          rfl
        · split at opens
          · rename_i isKeyword
            cases opens
            rw [longShorthand_keyword _ _ (.inr isKeyword),
              keywordCommand_context _ _ _ isKeyword]
            rfl
          · cases opens
  · cases opens

/-- Every other command is read without reading an inner one. -/
theorem readWords_direct {words : List Text} (direct : opening? words = none) :
    readWords isScript inner text words = readWords isScript other text words := by
  have few {words : List Text} (noMore : words.drop 2 = []) :
      keywordCommand isScript inner text words = keywordCommand isScript other text words :=
    keywordCommand_direct _ _ _ _ fun third more isMore => by simp [noMore] at isMore
  match words with
  | [] => rfl
  | [word] => rw [readWords, readWords, few rfl]
  | first :: second :: others =>
      rw [opening?] at direct
      rw [readWords.eq_3 _ _ _ _ (by simp) (by simp), readWords.eq_3 _ _ _ _ (by simp) (by simp)]
      split at direct
      · cases direct
      · rename_i wraps
        rw [longShorthand_direct inner other _ wraps]
        split at direct
        · rename_i noMore
          rw [few (by simp [noMore])]
        · split at direct
          · cases direct
          · rename_i noConditional
            split at direct
            · cases direct
            · rename_i noContext
              have same : keywordCommand isScript inner text (first :: second :: others) =
                  keywordCommand isScript other text (first :: second :: others) :=
                keywordCommand_direct _ _ _ _ fun _ _ _ => ⟨noConditional, noContext⟩
              rw [same]

theorem readNested_succ (depth : Nat) (typed : Text) :
    readNested isScript (depth + 1) typed = match words? (trim typed) with
      | none => .error (.openQuote (trim typed))
      | some words => readWords isScript (readNested isScript depth) (trim typed) words := by
  rw [readNested]
  rcases words? (trim typed) with _ | _ | ⟨word, _ | ⟨second, others⟩⟩ <;> rfl

end

theorem solidCount_pos {character : Char} (isSolid : isSolid character = true) (rest : Text) :
    0 < solidCount (character :: rest) :=
  List.countP_pos_iff.mpr ⟨character, List.mem_cons_self, isSolid⟩

/-- The first word of a command around another one has a solid character. -/
theorem solidCount_opening {words : List Text} {wrapper : Wrapper} {count : Nat}
    (opens : opening? words = some (wrapper, count)) :
    0 < ((words.take count).map solidCount).sum := by
  have keyword {first : Text} (isKeyword : toLower first = "if" ∨ toLower first = "context") :
      0 < solidCount first := by
    cases first with
    | nil => rcases isKeyword with isKeyword | isKeyword <;> cases isKeyword
    | cons character rest =>
        refine solidCount_pos ?_ rest
        rw [isSolid, decide_eq_true_eq]
        exact not_mem_of_keyword (by decide) isKeyword rfl
  unfold opening? at opens
  split at opens
  · rename_i first second others
    split at opens
    · rename_i wraps
      cases opens
      unfold Wrapper.read? at wraps
      split at wraps
      · have isSolid : isSolid '?' = true := by decide
        exact solidCount_pos isSolid _
      · have isSolid : isSolid '/' = true := by decide
        exact solidCount_pos isSolid _
      · cases wraps
    · split at opens
      · cases opens
      · split at opens
        · rename_i isKeyword
          cases opens
          exact Nat.lt_of_lt_of_le (keyword (.inl isKeyword)) (by simp)
        · split at opens
          · rename_i isKeyword
            cases opens
            exact Nat.lt_of_lt_of_le (keyword (.inr isKeyword)) (by simp)
          · cases opens
  · cases opens

/-- What an inner command is read from has fewer solid characters than the whole. -/
theorem solidCount_nested {typed inner : Text} {wrapper : Wrapper}
    (nested : nested? typed = some (wrapper, inner)) : solidCount inner < solidCount typed := by
  obtain ⟨words, count, areWords, opens, rfl⟩ := nested?_eq_some.mp nested
  have fewer := solidCount_tail areWords count
  have positive := solidCount_opening opens
  have trimmed : solidCount (trim typed) ≤ solidCount typed := by
    obtain ⟨front, back, isTyped, -, -⟩ := exists_trim typed
    have parts := congrArg solidCount isTyped
    rw [solidCount_append, solidCount_append] at parts
    omega
  omega

/-- All depths are enough that are greater than the number of solid characters. The induction is on
this number, which is smaller in what an inner command is read from. -/
theorem readNested_stable (isScript : Text → Bool) {depth other : Nat} {typed : Text}
    (enough : solidCount typed < depth) (enoughToo : solidCount typed < other) :
    readNested isScript depth typed = readNested isScript other typed := by
  induction isCount : solidCount typed using Nat.strong_induction_on
    generalizing typed depth other with
  | _ solid inductionHypothesis =>
  subst isCount
  obtain ⟨depth, rfl⟩ := Nat.exists_eq_add_of_lt enough
  obtain ⟨other, rfl⟩ := Nat.exists_eq_add_of_lt enoughToo
  rw [readNested_succ, readNested_succ]
  cases areWords : words? (trim typed) with
  | none => rfl
  | some words =>
      cases opens : opening? words with
      | none => exact readWords_direct _ _ _ _ opens
      | some found =>
          have fewer := solidCount_nested (nested?_eq_some.mpr ⟨words, found.2, areWords, opens, rfl⟩)
          simp only [readWords_opening _ _ _ opens]
          generalize tail (trim typed) words found.2 = inner at fewer
          have below : solidCount inner < solidCount typed + depth := by omega
          have belowToo : solidCount inner < solidCount typed + other := by omega
          rw [inductionHypothesis _ fewer below belowToo rfl]

/-- A command is read as its words are, with all inner commands. -/
theorem read_eq (isScript : Text → Bool) (typed : Text) :
    read isScript typed = match words? (trim typed) with
      | none => .error (.openQuote (trim typed))
      | some words => readWords isScript (read isScript) (trim typed) words := by
  rw [read, readNested_succ]
  cases areWords : words? (trim typed) with
  | none => rfl
  | some words =>
      cases opens : opening? words with
      | none => exact readWords_direct _ _ _ _ opens
      | some found =>
          have fewer := solidCount_nested (nested?_eq_some.mpr ⟨words, found.2, areWords, opens, rfl⟩)
          have length : solidCount typed ≤ typed.length := List.countP_le_length
          simp only [readWords_opening _ _ _ opens]
          rw [read, readNested_stable isScript (by omega) (Nat.lt_succ_of_le List.countP_le_length)]

/-- A command around another one is read from the inner command, whatever its depth is. -/
theorem read_nested (isScript : Text → Bool) {typed inner : Text} {wrapper : Wrapper}
    (nested : nested? typed = some (wrapper, inner)) :
    read isScript typed = (read isScript inner).map wrapper.around := by
  obtain ⟨words, count, areWords, opens, rfl⟩ := nested?_eq_some.mp nested
  rw [read_eq, areWords]
  exact readWords_opening _ _ _ opens

end Command

end ManagementShell

import ManagementShell.Text.Blank
import ManagementShell.Text.Numeral
import ManagementShell.Text.Printable
import ManagementShell.Text.Utf8
import Mathlib.Data.List.Basic

/-
This file shows that a character that a text lacks is not in the texts that are made from it.
-/

namespace ManagementShell.Text

/-- These printable characters of ASCII are in no fixed text. -/
def unused : Text := "KZ^\x60"

/-- Fixed texts and numbers are made of the other ones and a few controls. -/
def isFixed (character : Char) : Bool :=
  let code := character.toNat
  (32 ≤ code && code ≤ 126 && !unused.contains character) ||
    code == 0 || code == 9 || code == 10 || code == 13 || code == 27

/-- No fixed text has the character. -/
def Fresh (character : Char) : Prop := isFixed character = false

variable {c : Char}

theorem Fresh.ne (fresh : Fresh c) {character : Char} (fixed : isFixed character = true) :
    c ≠ character := by
  rintro rfl
  rw [fresh] at fixed
  cases fixed

theorem Fresh.lacks (fresh : Fresh c) {text : Text} (fixed : text.all isFixed = true) :
    c ∉ text :=
  fun member => fresh.ne (List.all_eq_true.mp fixed c member) rfl

/-- The check by codes alone, which is quick to decide for a text that is written out. -/
def areFixed (characters : List Char) : Bool :=
  characters.all fun character =>
    let code := character.toNat
    (32 ≤ code && code ≤ 126 && !(code == 75 || code == 90 || code == 94 || code == 96)) ||
      code == 0 || code == 9 || code == 10 || code == 13 || code == 27

theorem unused_contains (character : Char) : unused.contains character =
    (character.toNat == 75 || character.toNat == 90 || character.toNat == 94 ||
      character.toNat == 96) := by
  have codes (other : Char) : (character == other) = (character.toNat == other.toNat) := by
    rw [Bool.eq_iff_iff, beq_iff_eq, beq_iff_eq]
    exact ⟨congrArg _, Char.ext_iff.mpr ∘ UInt32.toNat_inj.mp⟩
  have letters : unused = ['K', 'Z', '^', '\x60'] := by rw [unused, String.toList_ofList]
  rw [letters]
  simp only [List.contains_cons, List.contains_nil, codes, Bool.or_false, Bool.or_assoc]
  rfl

theorem all_isFixed {characters : List Char} (fixed : areFixed characters = true) :
    characters.all isFixed = true := by
  rw [areFixed, List.all_eq_true] at fixed
  rw [List.all_eq_true]
  intro character member
  rw [isFixed, unused_contains]
  exact fixed character member

theorem Fresh.literal (fresh : Fresh c) {characters : List Char}
    (fixed : areFixed characters = true) : c ∉ (String.ofList characters).toList := by
  rw [String.toList_ofList]
  exact fresh.lacks (all_isFixed fixed)

theorem after?_lacks {text beginning rest : Text} (isRest : text.after? beginning = some rest)
    (lacks : c ∉ text) : c ∉ rest := by
  rw [after?, List.isPrefixOf?_eq_some_iff_append_eq] at isRest
  rw [← isRest, List.mem_append, not_or] at lacks
  exact lacks.2

theorem cut?_lacks {text mark : Text} {parts : Text × Text} (isCut : text.cut? mark = some parts)
    (lacks : c ∉ text) : c ∉ parts.1 ∧ c ∉ parts.2 := by
  induction text generalizing parts with
  | nil =>
      unfold cut? at isCut
      split at isCut
      · cases isCut
        simp
      · cases isCut
  | cons character rest inductionHypothesis =>
      unfold cut? at isCut
      split at isCut
      · rename_i remainder isRemainder
        cases isCut
        exact ⟨List.not_mem_nil, after?_lacks isRemainder lacks⟩
      · rw [List.mem_cons, not_or] at lacks
        obtain ⟨later, isLater, rfl⟩ := Option.map_eq_some_iff.mp isCut
        have both := inductionHypothesis isLater lacks.2
        exact ⟨by simp [lacks.1, both.1], both.2⟩

theorem cutLast?_lacks {text : Text} {separator : Char} {parts : Text × Text}
    (isCut : text.cutLast? separator = some parts) (lacks : c ∉ text) :
    c ∉ parts.1 ∧ c ∉ parts.2 := by
  induction text generalizing parts with
  | nil => cases isCut
  | cons character rest inductionHypothesis =>
      rw [List.mem_cons, not_or] at lacks
      unfold cutLast? at isCut
      split at isCut
      · rename_i later isLater
        cases isCut
        have both := inductionHypothesis isLater lacks.2
        exact ⟨by simp [lacks.1, both.1], both.2⟩
      · split at isCut
        · cases isCut
          exact ⟨List.not_mem_nil, lacks.2⟩
        · cases isCut

theorem splitOn_lacks {text : Text} {separator : Char} (lacks : c ∉ text) :
    ∀ part ∈ text.splitOn separator, c ∉ part := by
  induction text with
  | nil => simp [splitOn]
  | cons character rest inductionHypothesis =>
      rw [List.mem_cons, not_or] at lacks
      have later := inductionHypothesis lacks.2
      unfold splitOn
      split
      · simpa using later
      · split
        · simpa using lacks.1
        · rename_i first others isSplit
          rw [isSplit] at later
          simp only [List.mem_cons, forall_eq_or_imp] at later ⊢
          exact ⟨by simp [lacks.1, later.1], later.2⟩

theorem splitOn_separator (text : Text) (separator : Char) :
    ∀ part ∈ text.splitOn separator, separator ∉ part := by
  induction text with
  | nil => simp [splitOn]
  | cons character rest inductionHypothesis =>
      unfold splitOn
      split
      · simpa using inductionHypothesis
      · rename_i differs
        split
        · simpa using Ne.symm differs
        · rename_i first others isSplit
          rw [isSplit] at inductionHypothesis
          simp only [List.mem_cons, forall_eq_or_imp] at inductionHypothesis ⊢
          exact ⟨by simp [Ne.symm differs, inductionHypothesis.1], inductionHypothesis.2⟩

theorem splitOn_of_not_mem {text : Text} {separator : Char} (absent : separator ∉ text) :
    text.splitOn separator = [text] := by
  induction text with
  | nil => rfl
  | cons character rest inductionHypothesis =>
      rw [List.mem_cons, not_or] at absent
      rw [splitOn, if_neg (Ne.symm absent.1), inductionHypothesis absent.2]

theorem lines_lacks {text : Text} (lacks : c ∉ text) : ∀ line ∈ text.lines, c ∉ line := by
  induction text using lines.induct with
  | case1 => simp [lines]
  | case2 rest inductionHypothesis =>
      rw [List.mem_cons, not_or] at lacks
      simpa [lines] using inductionHypothesis lacks.2
  | case3 rest inductionHypothesis =>
      simp only [List.mem_cons, not_or] at lacks
      simpa [lines] using inductionHypothesis lacks.2.2
  | case4 character rest noEnd noReturn isLines inductionHypothesis =>
      rw [List.mem_cons, not_or] at lacks
      rw [lines]
      · simpa [isLines] using lacks.1
      · exact noEnd
      · exact noReturn
  | case5 character rest noEnd noReturn first others isLines inductionHypothesis =>
      rw [List.mem_cons, not_or] at lacks
      have later := inductionHypothesis lacks.2
      rw [isLines] at later
      rw [lines]
      · simp only [isLines, List.mem_cons, forall_eq_or_imp] at later ⊢
        exact ⟨by simp [lacks.1, later.1], later.2⟩
      · exact noEnd
      · exact noReturn

theorem join_lacks {separator : Text} {parts : List Text} (free : c ∉ separator)
    (lacks : ∀ part ∈ parts, c ∉ part) : c ∉ join separator parts := by
  unfold join
  induction parts with
  | nil => simp
  | cons first rest inductionHypothesis =>
      simp only [List.mem_cons, forall_eq_or_imp] at lacks
      cases rest with
      | nil => simpa using lacks.1
      | cons second others =>
          rw [List.intercalate_cons_cons]
          simp [lacks.1, free, inductionHypothesis lacks.2]

/-- The separators go with the parts behind them. -/
theorem join_cons (separator first : Text) (rest : List Text) :
    join separator (first :: rest) = (first :: rest.map (separator ++ ·)).flatten := by
  unfold join
  induction rest generalizing first with
  | nil => simp
  | cons second rest inductionHypothesis =>
      rw [List.intercalate_cons_cons, inductionHypothesis]
      simp

theorem subset_join {separator part : Text} {parts : List Text} (isPart : part ∈ parts) :
    part ⊆ join separator parts := by
  cases parts with
  | nil => cases isPart
  | cons first rest =>
      rw [join_cons]
      rcases List.mem_cons.mp isPart with rfl | isLater
      · exact List.subset_append_left _ _
      · exact fun _ member => List.mem_append_right _ (List.mem_flatten.mpr
          ⟨separator ++ part, List.mem_map_of_mem isLater, List.mem_append_right _ member⟩)

theorem replaceFrom_lacks {mark replacement : Text} (free : c ∉ replacement) (skip : Nat)
    {text : Text} (lacks : c ∉ text) : c ∉ replaceFrom mark replacement skip text := by
  induction text generalizing skip with
  | nil => simp [replaceFrom]
  | cons character rest inductionHypothesis =>
      rw [List.mem_cons, not_or] at lacks
      cases skip with
      | succ skip => exact inductionHypothesis skip lacks.2
      | zero =>
          unfold replaceFrom
          split
          · simp [free, inductionHypothesis _ lacks.2]
          · simp [lacks.1, inductionHypothesis _ lacks.2]

theorem replaceAll_lacks {mark replacement text : Text} (free : c ∉ replacement)
    (lacks : c ∉ text) : c ∉ text.replaceAll mark replacement := replaceFrom_lacks free 0 lacks

theorem replaceAll_subset (mark replacement text : Text) :
    text.replaceAll mark replacement ⊆ text ++ replacement := by
  intro character member
  by_contra outside
  rw [List.mem_append, not_or] at outside
  exact replaceAll_lacks outside.2 outside.1 member

theorem dropWhileEnd_lacks {drop : Char → Bool} {text : Text} (lacks : c ∉ text) :
    c ∉ text.dropWhileEnd drop := by
  intro member
  rw [dropWhileEnd, List.mem_reverse] at member
  exact lacks (List.mem_reverse.mp (List.dropWhile_subset _ member))

theorem trimStart_lacks {text : Text} (lacks : c ∉ text) : c ∉ text.trimStart :=
  fun member => lacks (List.dropWhile_subset _ member)

theorem trimEnd_lacks {text : Text} (lacks : c ∉ text) : c ∉ text.trimEnd :=
  dropWhileEnd_lacks lacks

theorem trim_lacks {text : Text} (lacks : c ∉ text) : c ∉ text.trim :=
  trimEnd_lacks (trimStart_lacks lacks)

theorem dropBytes?_lacks {count : Nat} {text : Text} (lacks : c ∉ text) :
    c ∉ (dropBytes? count text).getD [] := by
  induction text generalizing count with
  | nil => cases count <;> exact List.not_mem_nil
  | cons character rest inductionHypothesis =>
      cases count with
      | zero => exact lacks
      | succ count =>
          rw [List.mem_cons, not_or] at lacks
          unfold dropBytes?
          dsimp only
          split
          · exact inductionHypothesis lacks.2
          · exact List.not_mem_nil

theorem padRight_lacks {width : Nat} {text : Text} (fresh : Fresh c) (lacks : c ∉ text) :
    c ∉ text.padRight width := by
  have blank : c ≠ ' ' := fresh.ne (by decide)
  simp [padRight, lacks, blank]

theorem digitChar_isFixed (value : Nat) : isFixed (Nat.digitChar value) = true := by
  have digits : ∀ value < 16, isFixed (Nat.digitChar value) = true := by decide
  by_cases small : value < 16
  · exact digits value small
  · have others : Nat.digitChar value = '*' := by
      unfold Nat.digitChar
      repeat rw [if_neg (by omega)]
    rw [others]
    decide

theorem toDigitsCore_lacks (fresh : Fresh c) (base steps value : Nat) {digits : Text}
    (lacks : c ∉ digits) : c ∉ Nat.toDigitsCore base steps value digits := by
  induction steps generalizing value digits with
  | zero => exact lacks
  | succ steps inductionHypothesis =>
      have differs : c ≠ Nat.digitChar (value % base) := fresh.ne (digitChar_isFixed _)
      have longer : c ∉ Nat.digitChar (value % base) :: digits := by simp [differs, lacks]
      unfold Nat.toDigitsCore
      dsimp only
      split
      · exact longer
      · exact inductionHypothesis _ longer

theorem toDigits_lacks (fresh : Fresh c) (base value : Nat) : c ∉ Nat.toDigits base value :=
  toDigitsCore_lacks fresh _ _ _ List.not_mem_nil

theorem ofNat_lacks (fresh : Fresh c) (value : Nat) : c ∉ ofNat value := toDigits_lacks fresh _ _

theorem ofInt_lacks (fresh : Fresh c) (value : Int) : c ∉ ofInt value := by
  cases value with
  | ofNat value => exact ofNat_lacks fresh value
  | negSucc value =>
      have sign : c ≠ '-' := fresh.ne (by decide)
      simp [ofInt, sign, ofNat_lacks fresh]

theorem escaped_lacks (fresh : Fresh c) {character : Char} (differs : c ≠ character) :
    c ∉ escaped character := by
  have fixed {characters : List Char} (known : areFixed characters = true) :
      c ∉ (String.ofList characters).toList := fresh.literal known
  unfold escaped
  split
  · exact fixed (by decide)
  · exact fixed (by decide)
  · exact fixed (by decide)
  · exact fixed (by decide)
  · exact fixed (by decide)
  · exact fixed (by decide)
  · split
    · simp only [List.mem_append, not_or]
      exact ⟨⟨fixed (by decide), toDigits_lacks fresh _ _⟩, fixed (by decide)⟩
    · simpa using differs

theorem quotedCharacter_lacks (fresh : Fresh c) {character : Char} (differs : c ≠ character) :
    c ∉ quotedCharacter character := by
  have mark : c ∉ ("'" : Text) := fresh.literal (by decide)
  simp only [quotedCharacter, List.mem_append, not_or]
  exact ⟨⟨mark, escaped_lacks fresh differs⟩, mark⟩

end ManagementShell.Text

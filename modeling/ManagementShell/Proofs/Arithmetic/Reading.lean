import ManagementShell.Proofs.Arithmetic.Grammar
import ManagementShell.Proofs.Outcome
import Mathlib.Data.List.TakeWhile

/-
This file takes the reading of an expression apart into its steps, and shows that what is read is
derived by the grammar and has the value that is read.
-/

namespace ManagementShell.Arithmetic
open Text

/-- The value and the rest of a reading, without the bound of the rest. -/
def bare {bound : Nat} (outcome : Except Fault (Reading bound)) : Except Fault (Int × Text) :=
  outcome.map fun reading => (reading.value, reading.rest)

@[simp]
theorem bare_ok {bound : Nat} (reading : Reading bound) :
    bare (.ok reading) = .ok (reading.value, reading.rest) := rfl

@[simp]
theorem ok_bind {α β : Type} (value : α) (next : α → Except Fault β) :
    (.ok value >>= next) = next value := rfl

def read : Phrase → Text → Except Fault (Int × Text)
  | .chain .additive, text => bare (sum text)
  | .chain .multiplicative, text => bare (term text)
  | .factor, text => bare (factor text)
  | .primary, text => bare (primary text)

/-- The rest of a chain after operands with the given value. -/
def more : Tier → Int → Text → Except Fault (Int × Text)
  | .additive, left, text => bare (moreTerms left text)
  | .multiplicative, left, text => bare (moreFactors left text)

def Tier.apply? : Tier → Char → Option (Int → Int → Except Fault Int)
  | .additive => additive?
  | .multiplicative => multiplicative?

theorem read_chain (tier : Tier) (text : Text) :
    read (.chain tier) text = read tier.operand text >>= fun part => more tier part.1 part.2 := by
  cases tier with
  | additive =>
      simp only [read, more, Tier.operand]
      rw [sum]
      cases term text with
      | error fault => rfl
      | ok first =>
          simp only [bare_ok, ok_bind]
          cases moreTerms first.value first.rest <;> rfl
  | multiplicative =>
      simp only [read, more, Tier.operand]
      rw [term]
      cases factor text with
      | error fault => rfl
      | ok first =>
          simp only [bare_ok, ok_bind]
          cases moreFactors first.value first.rest <;> rfl

theorem more_eq (tier : Tier) (left : Int) (text : Text) :
    more tier left text = match text.trimStart with
      | [] => .ok (left, text)
      | character :: after => match tier.apply? character with
        | none => .ok (left, text)
        | some apply => read tier.operand after >>= fun part =>
            apply left part.1 >>= fun value => more tier value part.2 := by
  cases tier with
  | additive =>
      simp only [read, more, Tier.operand, Tier.apply?]
      rw [moreTerms]
      split
      · rename_i split
        simp only [split, bare_ok]
      · rename_i character after split
        simp only [split]
        cases additive? character with
        | none => rfl
        | some apply =>
            rcases term after with fault | right
            · rfl
            simp only [bare_ok, ok_bind]
            rcases apply left right.value with fault | value
            · rfl
            simp only [ok_bind]
            cases moreTerms value right.rest <;> rfl
  | multiplicative =>
      simp only [read, more, Tier.operand, Tier.apply?]
      rw [moreFactors]
      split
      · rename_i split
        simp only [split, bare_ok]
      · rename_i character after split
        simp only [split]
        cases multiplicative? character with
        | none => rfl
        | some apply =>
            rcases factor after with fault | right
            · rfl
            simp only [bare_ok, ok_bind]
            rcases apply left right.value with fault | value
            · rfl
            simp only [ok_bind]
            cases moreFactors value right.rest <;> rfl

theorem read_factor (text : Text) :
    read .factor text = match text.trimStart with
      | '-' :: after => read .factor after >>= fun part =>
          (ranged (-part.1)).map fun value => (value, part.2)
      | '+' :: after => read .primary after
      | _ => read .primary text := by
  simp only [read]
  rw [factor]
  split
  · rename_i split
    simp only [split]
  · rename_i character after split
    simp only [split]
    by_cases isMinus : character = '-'
    · subst isMinus
      rw [if_pos rfl]
      change bare _ = bare (factor after) >>= _
      rcases factor after with fault | operand
      · rfl
      simp only [bare_ok, ok_bind]
      cases ranged (-operand.value) <;> rfl
    · rw [if_neg isMinus]
      by_cases isPlus : character = '+'
      · subst isPlus
        rw [if_pos rfl]
        change bare _ = bare (primary after)
        cases primary after <;> rfl
      · rw [if_neg isPlus]
        split
        · rename_i same
          cases same
          exact absurd rfl isMinus
        · rename_i same
          cases same
          exact absurd rfl isPlus
        · rfl

/-- The reading of what stands in parentheses ends with the closing one. -/
def closed (part : Int × Text) : Except Fault (Int × Text) :=
  match part.2.trimStart with
  | ')' :: rest => .ok (part.1, rest)
  | other => .error (.notClosed other.head?)

theorem read_primary (text : Text) :
    read .primary text = match text.trimStart with
      | '(' :: after => read (.chain .additive) after >>= closed
      | start => bare (literal start) := by
  simp only [read]
  rw [primary]
  split
  · rename_i after split
    simp only [split]
    rcases sum after with fault | inner
    · rfl
    simp only [bare_ok, ok_bind, closed]
    split
    · rename_i closing
      simp only [closing, bare_ok]
    · rename_i notClosed
      split
      · rename_i rest closing
        exact absurd closing (notClosed rest)
      · rfl
  · rename_i notOpen
    trans bare (literal text.trimStart)
    · cases literal text.trimStart <;> rfl
    · split
      · rename_i after split
        exact absurd split (notOpen after)
      · rfl

theorem apply?_iff {tier : Tier} {character : Char} {apply : Int → Int → Except Fault Int} :
    tier.apply? character = some apply ↔
      ∃ operation : Operation, operation.tier = tier ∧ operation.sign = character ∧
        operation.apply = apply := by
  constructor
  · intro isSign
    cases tier with
    | additive =>
        change additive? character = some apply at isSign
        unfold additive? at isSign
        split at isSign
        · exact ⟨.plus, rfl, rfl, Option.some.inj isSign⟩
        · exact ⟨.minus, rfl, rfl, Option.some.inj isSign⟩
        · cases isSign
    | multiplicative =>
        change multiplicative? character = some apply at isSign
        unfold multiplicative? at isSign
        split at isSign
        · exact ⟨.times, rfl, rfl, Option.some.inj isSign⟩
        · exact ⟨.divide, rfl, rfl, Option.some.inj isSign⟩
        · exact ⟨.modulo, rfl, rfl, Option.some.inj isSign⟩
        · cases isSign
  · rintro ⟨operation, rfl, rfl, rfl⟩
    cases operation <;> rfl

theorem read_shorter {phrase : Phrase} {text : Text} {part : Int × Text}
    (isRead : read phrase text = .ok part) : part.2.length < text.length := by
  have within {outcome : Except Fault (Reading text.length)} (given : bare outcome = .ok part) :
      part.2.length < text.length := by
    obtain ⟨reading, -, rfl⟩ := map_eq_ok.mp given
    exact reading.within
  rcases phrase with (_ | _) | _ | _ <;> exact within isRead

theorem spaced_of_trimStart (token : Text) {after text : Text} (split : text.trimStart = token ++ after) :
    ∃ mark, text = mark ++ after ∧ Spaced token mark := by
  refine ⟨text.takeWhile isBlank ++ token, ?_, text.takeWhile isBlank, List.all_takeWhile, rfl⟩
  rw [List.append_assoc, ← split]
  exact List.takeWhile_append_dropWhile.symm

/-- The text is derived for an expression that is computed exactly and has the value. -/
def Evaluates (phrase : Phrase) (text : Text) (value : Int) : Prop :=
  ∃ expression, Derives phrase text expression ∧ expression.IsExact ∧ expression.value = value

theorem Evaluates.single {tier : Tier} {text : Text} {value : Int}
    (operand : Evaluates tier.operand text value) : Evaluates (.chain tier) text value := by
  obtain ⟨expression, derives, exact, isValue⟩ := operand
  exact ⟨expression, derives.single, exact, isValue⟩

theorem Evaluates.joined {operation : Operation} {first mark last : Text} {left right value : Int}
    (before : Evaluates (.chain operation.tier) first left) (sign : Spaced [operation.sign] mark)
    (operand : Evaluates operation.tier.operand last right)
    (applied : operation.apply left right = .ok value) :
    Evaluates (.chain operation.tier) (first ++ mark ++ last) value := by
  obtain ⟨leftTree, derivesLeft, exactLeft, rfl⟩ := before
  obtain ⟨rightTree, derivesRight, exactRight, rfl⟩ := operand
  obtain ⟨⟨defined, inRange⟩, rfl⟩ := (apply_eq_ok exactLeft.inRange).mp applied
  exact ⟨.joined leftTree operation rightTree, derivesLeft.joined operation sign derivesRight,
    ⟨exactLeft, exactRight, defined, inRange⟩, rfl⟩

theorem Evaluates.negated {mark text : Text} {operand value : Int} (sign : Spaced ['-'] mark)
    (evaluates : Evaluates .factor text operand) (applied : ranged (-operand) = .ok value) :
    Evaluates .factor (mark ++ text) value := by
  obtain ⟨expression, derives, exact, rfl⟩ := evaluates
  obtain ⟨inRange, rfl⟩ := ranged_eq_ok.mp applied
  exact ⟨.negated expression, derives.negated sign, ⟨exact, inRange⟩, rfl⟩

theorem Evaluates.signed {mark text : Text} {value : Int} (sign : Spaced ['+'] mark)
    (evaluates : Evaluates .primary text value) : Evaluates .factor (mark ++ text) value := by
  obtain ⟨expression, derives, exact, isValue⟩ := evaluates
  exact ⟨expression, derives.signed sign, exact, isValue⟩

theorem Evaluates.unsigned {text : Text} {value : Int} (evaluates : Evaluates .primary text value) :
    Evaluates .factor text value := by
  obtain ⟨expression, derives, exact, isValue⟩ := evaluates
  exact ⟨expression, derives.unsigned, exact, isValue⟩

theorem Evaluates.enclosed {start text stop : Text} {value : Int} (opening : Spaced ['('] start)
    (evaluates : Evaluates (.chain .additive) text value) (closing : Spaced [')'] stop) :
    Evaluates .primary (start ++ text ++ stop) value := by
  obtain ⟨expression, derives, exact, isValue⟩ := evaluates
  exact ⟨expression, derives.enclosed opening closing, exact, isValue⟩

/-- A literal is read from all digits that the text begins with. -/
theorem bare_literal {digits rest : Text} (nonempty : digits ≠ [])
    (areDigits : digits.all Char.isDigit = true) (ends : rest.head?.all (!·.isDigit) = true) :
    bare (literal (digits ++ rest)) =
      if InRange (digitsValue digits) then .ok (digitsValue digits, rest)
      else .error (.literalTooLarge digits) := by
  cases digits with
  | nil => exact absurd rfl nonempty
  | cons first others =>
      rw [List.all_cons, Bool.and_eq_true, List.all_eq_true] at areDigits
      have stops : rest.takeWhile Char.isDigit = [] ∧ rest.dropWhile Char.isDigit = rest := by
        cases rest with
        | nil => exact ⟨rfl, rfl⟩
        | cons character after =>
            have other : character.isDigit = false := by simpa using ends
            simp [other]
      have taken : (others ++ rest).takeWhile Char.isDigit = others := by
        rw [List.takeWhile_append_of_pos areDigits.2, stops.1, List.append_nil]
      have dropped : (others ++ rest).dropWhile Char.isDigit = rest := by
        rw [List.dropWhile_append_of_pos areDigits.2, stops.2]
      rw [List.cons_append, literal, if_pos areDigits.1]
      dsimp only
      rw [taken]
      split
      · simp [bare, Except.map, dropped]
      · rfl

theorem literal_sound {text rest : Text} {value : Int}
    (isRead : bare (literal text) = .ok (value, rest)) :
    ∃ digits, text = digits ++ rest ∧ digits ≠ [] ∧ digits.all Char.isDigit = true ∧
      InRange (digitsValue digits) ∧ value = digitsValue digits := by
  have cut : text.takeWhile Char.isDigit ++ text.dropWhile Char.isDigit = text :=
    List.takeWhile_append_dropWhile
  have ends : (text.dropWhile Char.isDigit).head?.all (!·.isDigit) = true := by
    have first := List.head?_dropWhile_not Char.isDigit text
    cases later : (text.dropWhile Char.isDigit).head? with
    | none => rfl
    | some character =>
        rw [later] at first
        simp [first]
  cases text with
  | nil => cases isRead
  | cons first others =>
      by_cases isDigit : first.isDigit
      · rw [← cut, bare_literal (by simp [isDigit]) List.all_takeWhile ends] at isRead
        split at isRead
        · rename_i inRange
          cases isRead
          exact ⟨_, cut.symm, by simp [isDigit], List.all_takeWhile, inRange, rfl⟩
        · cases isRead
      · rw [literal, if_neg isDigit] at isRead
        cases isRead

/-- Where a phrase stands in the order in which readings call each other. -/
def Phrase.rank : Phrase → Nat
  | .chain .additive => 3
  | .chain .multiplicative => 2
  | .factor => 1
  | .primary => 0

theorem rank_operand (tier : Tier) : tier.operand.rank < (Phrase.chain tier).rank := by
  cases tier <;> decide

mutual

/-- What is read is derived by the grammar and has the value that is read. -/
theorem read_sound (phrase : Phrase) (text : Text) {value : Int} {rest : Text}
    (isRead : read phrase text = .ok (value, rest)) :
    ∃ used, text = used ++ rest ∧ Evaluates phrase used value := by
  match phrase with
  | .chain tier =>
      rw [read_chain] at isRead
      obtain ⟨⟨left, later⟩, isFirst, isMore⟩ := bind_eq_ok.mp isRead
      have shorter : later.length < text.length := read_shorter isFirst
      have smaller := rank_operand tier
      obtain ⟨first, rfl, evaluates⟩ := read_sound tier.operand text isFirst
      obtain ⟨further, rfl, whole⟩ := more_sound tier left later evaluates.single isMore
      exact ⟨first ++ further, (List.append_assoc ..).symm, whole⟩
  | .factor =>
      rw [read_factor] at isRead
      split at isRead
      · rename_i after split
        obtain ⟨⟨operand, later⟩, isOperand, applied⟩ := bind_eq_ok.mp isRead
        obtain ⟨result, isResult, same⟩ := map_eq_ok.mp applied
        cases same
        have shorter := rest_shorter split
        obtain ⟨mark, isText, sign⟩ := spaced_of_trimStart ['-'] split
        obtain ⟨used, rfl, evaluates⟩ := read_sound .factor after isOperand
        exact ⟨mark ++ used, by rw [isText, List.append_assoc],
          evaluates.negated sign isResult⟩
      · rename_i after split
        have shorter := rest_shorter split
        obtain ⟨mark, isText, sign⟩ := spaced_of_trimStart ['+'] split
        obtain ⟨used, rfl, evaluates⟩ := read_sound .primary after isRead
        exact ⟨mark ++ used, by rw [isText, List.append_assoc], evaluates.signed sign⟩
      · obtain ⟨used, isText, evaluates⟩ := read_sound .primary text isRead
        exact ⟨used, isText, evaluates.unsigned⟩
  | .primary =>
      rw [read_primary] at isRead
      split at isRead
      · rename_i after split
        obtain ⟨⟨inner, later⟩, isInner, isClosed⟩ := bind_eq_ok.mp isRead
        have shorter := rest_shorter split
        obtain ⟨start, isText, opening⟩ := spaced_of_trimStart ['('] split
        obtain ⟨used, rfl, evaluates⟩ := read_sound (.chain .additive) after isInner
        unfold closed at isClosed
        split at isClosed
        · rename_i others split
          cases isClosed
          obtain ⟨stop, rfl, closing⟩ := spaced_of_trimStart [')'] split
          exact ⟨start ++ used ++ stop, by rw [isText]; simp only [List.append_assoc],
            evaluates.enclosed opening closing⟩
        · cases isClosed
      · obtain ⟨digits, split, nonempty, areDigits, inRange, rfl⟩ := literal_sound isRead
        obtain ⟨used, isText, spaced⟩ := spaced_of_trimStart _ split
        exact ⟨used, isText, .literal digits, .literal nonempty areDigits spaced, inRange, rfl⟩
termination_by (text.length, phrase.rank)
decreasing_by all_goals grind [Phrase.rank]

/-- The chain that was already read goes on with what is read further. -/
theorem more_sound (tier : Tier) (left : Int) (text : Text) {value : Int} {rest used : Text}
    (before : Evaluates (.chain tier) used left) (isRead : more tier left text = .ok (value, rest)) :
    ∃ further, text = further ++ rest ∧ Evaluates (.chain tier) (used ++ further) value := by
  rw [more_eq] at isRead
  split at isRead
  · cases isRead
    exact ⟨[], rfl, by rwa [List.append_nil]⟩
  · rename_i character after split
    split at isRead
    · cases isRead
      exact ⟨[], rfl, by rwa [List.append_nil]⟩
    · rename_i apply isSign
      obtain ⟨operation, rfl, rfl, rfl⟩ := apply?_iff.mp isSign
      obtain ⟨⟨right, later⟩, isRight, applied⟩ := bind_eq_ok.mp isRead
      obtain ⟨result, isResult, isMore⟩ := bind_eq_ok.mp applied
      have shorter := rest_shorter split
      have shorterStill : later.length < after.length := read_shorter isRight
      obtain ⟨mark, isText, sign⟩ := spaced_of_trimStart [operation.sign] split
      obtain ⟨last, rfl, evaluates⟩ := read_sound operation.tier.operand after isRight
      obtain ⟨further, rfl, whole⟩ := more_sound operation.tier result later
        (before.joined sign evaluates isResult) isMore
      exact ⟨mark ++ last ++ further, by rw [isText]; simp only [List.append_assoc],
        by simpa only [List.append_assoc] using whole⟩
termination_by (text.length, 0)

end

end ManagementShell.Arithmetic

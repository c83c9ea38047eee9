import ManagementShell.Proofs.Arithmetic.Reading
import ManagementShell.Proofs.Text.Blank

/-
This file shows that every derivation of the grammar is read back, and from it that an expression is
evaluated exactly when the grammar derives it and no step leaves the integers that are kept.
-/

namespace ManagementShell.Arithmetic
open Text

/-- How reading goes on after a phrase: only a chain may have more operands. -/
def goOn : Phrase → Int → Text → Except Fault (Int × Text)
  | .chain tier, value, rest => more tier value rest
  | .factor, value, rest | .primary, value, rest => .ok (value, rest)

/-- The text does not continue a phrase in front of it, further operands of a chain apart. -/
def Stops : Phrase → Text → Prop
  | .chain .additive, rest => rest.head?.all (!·.isDigit) = true ∧
      ∀ character ∈ rest.trimStart.head?, multiplicative? character = none
  | _, rest => rest.head?.all (!·.isDigit) = true

theorem Stops.noDigit {phrase : Phrase} {rest : Text} (stops : Stops phrase rest) :
    rest.head?.all (!·.isDigit) = true := by
  rcases phrase with (_ | _) | _ | _
  · exact stops.1
  · exact stops
  · exact stops
  · exact stops

theorem trimStart_spaced {blanks token : Text} (areBlank : blanks.all isBlank = true) :
    (blanks ++ token).trimStart = token.trimStart :=
  List.dropWhile_append_of_pos (List.all_eq_true.mp areBlank)

theorem Spaced.trimStart {character : Char} {mark rest : Text} (sign : Spaced [character] mark)
    (notBlank : isBlank character = false) : (mark ++ rest).trimStart = character :: rest := by
  obtain ⟨blanks, areBlank, rfl⟩ := sign
  rw [List.append_assoc, trimStart_spaced areBlank]
  exact trimStart_of_head notBlank

theorem isDigit_of_isBlank {character : Char} (blank : isBlank character = true) :
    character.isDigit = false := by
  by_contra digit
  rw [Bool.not_eq_false] at digit
  rw [isBlank_of_isDigit digit] at blank
  cases blank

theorem Spaced.noDigit {character : Char} {mark rest : Text} (sign : Spaced [character] mark)
    (noDigit : character.isDigit = false) : (mark ++ rest).head?.all (!·.isDigit) = true := by
  obtain ⟨blanks, areBlank, rfl⟩ := sign
  cases blanks with
  | nil => simp [noDigit]
  | cons first others =>
      rw [List.all_cons, Bool.and_eq_true] at areBlank
      have other := isDigit_of_isBlank areBlank.1
      simp [other]

theorem Stops.operand {tier : Tier} {rest : Text} (stops : Stops (.chain tier) rest) :
    Stops tier.operand rest := by
  cases tier with
  | additive => exact stops.noDigit
  | multiplicative => exact stops.noDigit

/-- A phrase that stops does not go on. -/
theorem Stops.goOn_operand {tier : Tier} {rest : Text} (stops : Stops (.chain tier) rest)
    (value : Int) : goOn tier.operand value rest = .ok (value, rest) := by
  cases tier with
  | additive =>
      change more .multiplicative value rest = .ok (value, rest)
      rw [more_eq]
      have other := stops.2
      cases split : rest.trimStart with
      | nil => rfl
      | cons character after =>
          rw [split] at other
          have noSign : Tier.multiplicative.apply? character = none := other character rfl
          simp only [noSign]
  | multiplicative => rfl

theorem stops_sign {operation : Operation} {mark : Text}
    (sign : Spaced [operation.sign] mark) (rest : Text) : Stops (.chain operation.tier) (mark ++ rest) := by
  have noDigit : (mark ++ rest).head?.all (!·.isDigit) = true :=
    sign.noDigit (by cases operation <;> decide)
  have split : (mark ++ rest).trimStart = operation.sign :: rest :=
    sign.trimStart (by cases operation <;> decide)
  cases operation with
  | plus | minus =>
      refine ⟨noDigit, fun character isHead => ?_⟩
      rw [split] at isHead
      cases isHead
      rfl
  | times | divide | modulo => exact noDigit

theorem stops_closing {mark : Text} (closing : Spaced [')'] mark) (rest : Text) :
    Stops (.chain .additive) (mark ++ rest) := by
  refine ⟨closing.noDigit (by decide), fun character isHead => ?_⟩
  rw [closing.trimStart (by decide)] at isHead
  cases isHead
  rfl

theorem more_of_sign {operation : Operation} {mark after : Text} (left : Int)
    (sign : Spaced [operation.sign] mark) :
    more operation.tier left (mark ++ after) = read operation.tier.operand after >>= fun part =>
      operation.apply left part.1 >>= fun value => more operation.tier value part.2 := by
  have split : (mark ++ after).trimStart = operation.sign :: after :=
    sign.trimStart (by cases operation <;> decide)
  have applies : operation.tier.apply? operation.sign = some operation.apply :=
    apply?_iff.mpr ⟨operation, rfl, rfl, rfl⟩
  rw [more_eq]
  simp only [split, applies]

theorem more_of_closing {mark rest : Text} (value : Int) (closing : Spaced [')'] mark) :
    more .additive value (mark ++ rest) = .ok (value, mark ++ rest) := by
  have noSign : Tier.additive.apply? ')' = none := rfl
  rw [more_eq]
  simp only [closing.trimStart (by decide), noSign]

theorem read_factor_of_primary {text after : Text} {character : Char}
    (split : text.trimStart = character :: after) (noMinus : character ≠ '-')
    (noPlus : character ≠ '+') : read .factor text = read .primary text := by
  rw [read_factor, split]
  split
  · rename_i same
    cases same
    exact absurd rfl noMinus
  · rename_i same
    cases same
    exact absurd rfl noPlus
  · rfl

theorem read_negated {mark after : Text} (sign : Spaced ['-'] mark) :
    read .factor (mark ++ after) = read .factor after >>= fun part =>
      (ranged (-part.1)).map fun value => (value, part.2) := by
  rw [read_factor, sign.trimStart (by decide)]
  rfl

theorem read_signed {mark after : Text} (sign : Spaced ['+'] mark) :
    read .factor (mark ++ after) = read .primary after := by
  rw [read_factor, sign.trimStart (by decide)]
  rfl

theorem read_enclosed {start after : Text} (opening : Spaced ['('] start) :
    read .primary (start ++ after) = read (.chain .additive) after >>= closed := by
  rw [read_primary, opening.trimStart (by decide)]
  rfl

theorem trimStart_digits {blanks digits : Text} (areBlank : blanks.all isBlank = true)
    (nonempty : digits ≠ []) (areDigits : digits.all Char.isDigit = true) (rest : Text) :
    ∃ character others, digits = character :: others ∧ character.isDigit = true ∧
      (blanks ++ digits ++ rest).trimStart = character :: (others ++ rest) := by
  cases digits with
  | nil => exact absurd rfl nonempty
  | cons character others =>
      rw [List.all_cons, Bool.and_eq_true] at areDigits
      refine ⟨character, others, rfl, areDigits.1, ?_⟩
      rw [List.append_assoc, trimStart_spaced areBlank]
      exact trimStart_of_head (isBlank_of_isDigit areDigits.1)

/-- A primary begins with a digit or with a parenthesis. -/
theorem Derives.primary_head {text : Text} {expression : Expression}
    (derives : Derives .primary text expression) (rest : Text) :
    ∃ character after, (text ++ rest).trimStart = character :: after ∧ character ≠ '-' ∧
      character ≠ '+' := by
  cases derives with
  | literal nonempty areDigits spaced =>
      obtain ⟨blanks, areBlank, rfl⟩ := spaced
      obtain ⟨character, others, -, isDigit, split⟩ :=
        trimStart_digits areBlank nonempty areDigits rest
      refine ⟨character, _, split, ?_, ?_⟩ <;>
        · rintro rfl
          exact absurd isDigit (by decide)
  | @enclosed start inner stop _ opening _ _ =>
      refine ⟨'(', inner ++ stop ++ rest, ?_, by decide, by decide⟩
      simp only [List.append_assoc]
      exact opening.trimStart (by decide)

theorem bind_error {outcome : Except Fault (Int × Text)}
    {next : Int × Text → Except Fault (Int × Text)} (fails : ∃ fault, outcome = .error fault) :
    ∃ fault, outcome >>= next = .error fault := by
  obtain ⟨fault, rfl⟩ := fails
  exact ⟨fault, rfl⟩

/-- In front of every rest where the phrase stops, the text is read with the value of the expression
if that is exact, and else with a fault. -/
def ReadsAs (phrase : Phrase) (text : Text) (expression : Expression) : Prop :=
  ∀ rest, Stops phrase rest →
    (expression.IsExact → read phrase (text ++ rest) = goOn phrase expression.value rest) ∧
      (¬expression.IsExact → ∃ fault, read phrase (text ++ rest) = .error fault)

theorem ReadsAs.single {tier : Tier} {text : Text} {expression : Expression}
    (operand : ReadsAs tier.operand text expression) : ReadsAs (.chain tier) text expression := by
  intro rest stops
  obtain ⟨succeeds, fails⟩ := operand rest stops.operand
  rw [read_chain]
  refine ⟨fun exact => ?_, fun inexact => bind_error (fails inexact)⟩
  rw [succeeds exact, stops.goOn_operand]
  rfl

theorem ReadsAs.joined {operation : Operation} {first mark last : Text} {left right : Expression}
    (before : ReadsAs (.chain operation.tier) first left) (sign : Spaced [operation.sign] mark)
    (operand : ReadsAs operation.tier.operand last right) :
    ReadsAs (.chain operation.tier) (first ++ mark ++ last) (.joined left operation right) := by
  intro rest stops
  obtain ⟨succeedsLeft, failsLeft⟩ := before _ (stops_sign sign (last ++ rest))
  obtain ⟨succeedsRight, failsRight⟩ := operand rest stops.operand
  simp only [List.append_assoc]
  by_cases exactLeft : left.IsExact
  swap
  · exact ⟨fun exact => absurd exact.1 exactLeft, fun _ => failsLeft exactLeft⟩
  have afterLeft : read (.chain operation.tier) (first ++ (mark ++ (last ++ rest))) =
      read operation.tier.operand (last ++ rest) >>= fun part =>
        operation.apply left.value part.1 >>= fun value => more operation.tier value part.2 :=
    (succeedsLeft exactLeft).trans (more_of_sign left.value sign)
  rw [afterLeft]
  by_cases exactRight : right.IsExact
  swap
  · exact ⟨fun exact => absurd exact.2.1 exactRight, fun _ => bind_error (failsRight exactRight)⟩
  simp only [succeedsRight exactRight, stops.goOn_operand, ok_bind]
  constructor
  · rintro ⟨-, -, defined⟩
    rw [(apply_eq_ok exactLeft.inRange).mpr ⟨defined, rfl⟩]
    rfl
  · intro inexact
    have undefined := fun defined => inexact ⟨exactLeft, exactRight, defined⟩
    obtain ⟨fault, failed⟩ := apply_fails exactLeft.inRange undefined
    exact ⟨fault, by rw [failed]; rfl⟩

theorem ReadsAs.negated {mark text : Text} {expression : Expression} (sign : Spaced ['-'] mark)
    (operand : ReadsAs .factor text expression) :
    ReadsAs .factor (mark ++ text) (.negated expression) := by
  intro rest stops
  obtain ⟨succeeds, fails⟩ := operand rest stops
  rw [List.append_assoc, read_negated sign]
  by_cases exact : expression.IsExact
  swap
  · exact ⟨fun both => absurd both.1 exact, fun _ => bind_error (fails exact)⟩
  simp only [succeeds exact, goOn, ok_bind]
  constructor
  · rintro ⟨-, inRange⟩
    rw [ranged_eq_ok.mpr ⟨inRange, rfl⟩]
    rfl
  · intro inexact
    have overflows : ¬InRange (-expression.value) := fun inRange => inexact ⟨exact, inRange⟩
    exact ⟨.overflow, by rw [ranged, if_neg overflows]; rfl⟩

theorem ReadsAs.signed {mark text : Text} {expression : Expression} (sign : Spaced ['+'] mark)
    (operand : ReadsAs .primary text expression) : ReadsAs .factor (mark ++ text) expression := by
  intro rest stops
  rw [List.append_assoc, read_signed sign]
  exact operand rest stops

theorem ReadsAs.unsigned {text : Text} {expression : Expression}
    (derives : Derives .primary text expression) (operand : ReadsAs .primary text expression) :
    ReadsAs .factor text expression := by
  intro rest stops
  obtain ⟨character, after, split, noMinus, noPlus⟩ := derives.primary_head rest
  rw [read_factor_of_primary split noMinus noPlus]
  exact operand rest stops

theorem readsAs_literal {digits text : Text} (nonempty : digits ≠ [])
    (areDigits : digits.all Char.isDigit = true) (spaced : Spaced digits text) :
    ReadsAs .primary text (.literal digits) := by
  intro rest stops
  obtain ⟨blanks, areBlank, rfl⟩ := spaced
  obtain ⟨character, others, rfl, isDigit, split⟩ :=
    trimStart_digits areBlank nonempty areDigits rest
  have isLiteral : read .primary (blanks ++ (character :: others) ++ rest) =
      bare (Arithmetic.literal ((character :: others) ++ rest)) := by
    rw [read_primary, split]
    split
    · rename_i same
      cases same
      exact absurd isDigit (by decide)
    · rfl
  rw [isLiteral, bare_literal nonempty areDigits stops.noDigit]
  exact ⟨fun inRange => if_pos inRange, fun overflows => ⟨_, if_neg overflows⟩⟩

theorem ReadsAs.enclosed {start text stop : Text} {expression : Expression}
    (opening : Spaced ['('] start) (inner : ReadsAs (.chain .additive) text expression)
    (closing : Spaced [')'] stop) : ReadsAs .primary (start ++ text ++ stop) expression := by
  intro rest _
  obtain ⟨succeeds, fails⟩ := inner _ (stops_closing closing rest)
  simp only [List.append_assoc]
  rw [read_enclosed opening]
  refine ⟨fun exact => ?_, fun inexact => bind_error (fails inexact)⟩
  rw [succeeds exact, goOn, more_of_closing expression.value closing, ok_bind, closed,
    closing.trimStart (by decide)]
  rfl

/-- Every derivation is read back. -/
theorem Derives.reads {phrase : Phrase} {text : Text} {expression : Expression}
    (derives : Derives phrase text expression) : ReadsAs phrase text expression := by
  induction derives with
  | single _ operand => exact operand.single
  | joined _ _ sign _ before operand => exact before.joined sign operand
  | negated sign _ operand => exact operand.negated sign
  | signed sign _ operand => exact operand.signed sign
  | unsigned derives operand => exact operand.unsigned derives
  | literal nonempty areDigits spaced => exact readsAs_literal nonempty areDigits spaced
  | enclosed opening _ closing inner => exact inner.enclosed opening closing

/-- White space may stand behind the whole sum, and nothing else. -/
def finished (part : Int × Text) : Except Fault Int :=
  match part.2.trimStart with
  | [] => .ok part.1
  | character :: _ => .error (.unexpected character)

theorem evaluate_eq (text : Text) : evaluate text = read (.chain .additive) text >>= finished := by
  change _ = bare (sum text) >>= finished
  rw [evaluate]
  cases sum text <;> rfl

theorem stops_blanks {blanks : Text} (areBlank : blanks.all isBlank = true) :
    Stops (.chain .additive) blanks := by
  refine ⟨?_, fun character isHead => ?_⟩
  · cases blanks with
    | nil => rfl
    | cons first others =>
        rw [List.all_cons, Bool.and_eq_true] at areBlank
        have other := isDigit_of_isBlank areBlank.1
        simp [other]
  · rw [trimStart_blanks areBlank] at isHead
    cases isHead

theorem Written.evaluate {text : Text} {expression : Expression}
    (written : Written text expression) :
    (expression.IsExact → evaluate text = .ok expression.value) ∧
      (¬expression.IsExact → ∃ fault, Arithmetic.evaluate text = .error fault) := by
  obtain ⟨sum, blanks, rfl, derives, areBlank⟩ := written
  have reads := derives.reads blanks (stops_blanks areBlank)
  have noSign : more .additive expression.value blanks = .ok (expression.value, blanks) := by
    rw [more_eq, trimStart_blanks areBlank]
  rw [evaluate_eq]
  constructor
  · intro exact
    rw [reads.1 exact, goOn, noSign, ok_bind, finished, trimStart_blanks areBlank]
  · intro inexact
    obtain ⟨fault, failed⟩ := reads.2 inexact
    exact ⟨fault, by rw [failed]; rfl⟩

theorem written_of_evaluate {text : Text} {value : Int} (evaluated : evaluate text = .ok value) :
    ∃ expression, Written text expression ∧ expression.IsExact ∧ expression.value = value := by
  rw [evaluate_eq] at evaluated
  obtain ⟨⟨result, rest⟩, isRead, isFinished⟩ := bind_eq_ok.mp evaluated
  obtain ⟨used, rfl, expression, derives, exact, isValue⟩ := read_sound _ text isRead
  unfold finished at isFinished
  split at isFinished
  · rename_i blank
    cases isFinished
    have areBlank := List.all_eq_true.mpr (List.dropWhile_eq_nil_iff.mp blank)
    exact ⟨expression, ⟨used, rest, rfl, derives, areBlank⟩, exact, isValue⟩
  · cases isFinished

/-- A text is evaluated to a value exactly when it is written for an expression that is computed
exactly and has the value; and it is the same for every expression that the text is written for. -/
theorem evaluate_iff (text : Text) (value : Int) :
    (evaluate text = .ok value ↔
      ∃ expression, Written text expression ∧ expression.IsExact ∧ expression.value = value) ∧
    ∀ expression, Written text expression →
      (evaluate text = .ok value ↔ expression.IsExact ∧ expression.value = value) := by
  have ofWritten (expression : Expression) (written : Written text expression) :
      evaluate text = .ok value ↔ expression.IsExact ∧ expression.value = value := by
    constructor
    · intro evaluated
      by_cases exact : expression.IsExact
      · rw [written.evaluate.1 exact] at evaluated
        exact ⟨exact, Except.ok.inj evaluated⟩
      · obtain ⟨fault, failed⟩ := written.evaluate.2 exact
        rw [failed] at evaluated
        cases evaluated
    · rintro ⟨exact, rfl⟩
      exact written.evaluate.1 exact
  refine ⟨⟨written_of_evaluate, ?_⟩, ofWritten⟩
  rintro ⟨expression, written, computed⟩
  exact (ofWritten expression written).mpr computed

/-- Operations of one tier are joined from the left, and products and parentheses come before
differences. -/
theorem evaluate_iff_difference :
    Written " 9 - 4 - +(7 % 4)*2 " (.joined (.joined (.literal "9") .minus (.literal "4")) .minus
        (.joined (.joined (.literal "7") .modulo (.literal "4")) .times (.literal "2"))) ∧
      evaluate " 9 - 4 - +(7 % 4)*2 " = .ok (-1) := by
  have literal (blanks digits : Text) (nonempty : digits ≠ [])
      (areDigits : digits.all Char.isDigit = true) (areBlank : blanks.all isBlank = true) :
      Derives .factor (blanks ++ digits) (.literal digits) :=
    .unsigned (.literal nonempty areDigits ⟨blanks, areBlank, rfl⟩)
  have nine := literal " " "9" (by decide) (by decide) (by decide)
  have four := literal " " "4" (by decide) (by decide) (by decide)
  have seven := literal "" "7" (by decide) (by decide) (by decide)
  have two := literal "" "2" (by decide) (by decide) (by decide)
  have space (character : Char) : Spaced [character] (" " ++ [character]) := ⟨" ", by decide, rfl⟩
  have tight (character : Char) : Spaced [character] [character] := ⟨[], rfl, rfl⟩
  have remainder : Derives (.chain .multiplicative) _ _ :=
    .joined .modulo (.single seven) (space '%') four
  have enclosed : Derives .primary _ _ := .enclosed (tight '(') (.single remainder) (tight ')')
  have product : Derives (.chain .multiplicative) _ _ :=
    .joined .times (.single (.signed (space '+') enclosed)) (tight '*') two
  have difference : Derives (.chain .additive) _ _ :=
    .joined .minus (.single (.single nine)) (space '-') (.single four)
  have written : Written " 9 - 4 - +(7 % 4)*2 " _ :=
    ⟨_, " ", by decide, difference.joined .minus (space '-') product, by decide⟩
  exact ⟨written, ((evaluate_iff _ _).2 _ written).mpr ⟨by decide, by decide⟩⟩

end ManagementShell.Arithmetic

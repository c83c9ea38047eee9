import ManagementShell.Arithmetic
import Mathlib.Data.Int.DivMod

/-
This file gives the grammar of expressions and their value over the integers, and shows when an
operation on integers that are kept gives this value.
-/

namespace ManagementShell.Arithmetic
open Text

inductive Operation where
  | plus
  | minus
  | times
  | divide
  | modulo
  deriving DecidableEq, Repr

/-- Operations of the second tier bind their operands before those of the first. -/
inductive Tier where
  | additive
  | multiplicative
  deriving DecidableEq, Repr

namespace Operation

def sign : Operation → Char
  | .plus => '+'
  | .minus => '-'
  | .times => '*'
  | .divide => '/'
  | .modulo => '%'

def tier : Operation → Tier
  | .plus | .minus => .additive
  | .times | .divide | .modulo => .multiplicative

/-- The value over the integers, where quotients are cut off toward zero. -/
def value : Operation → Int → Int → Int
  | .plus, left, right => left + right
  | .minus, left, right => left - right
  | .times, left, right => left * right
  | .divide, left, right => left.tdiv right
  | .modulo, left, right => left.tmod right

/-- A divisor is not zero, and the least integer has no remainder by minus one. -/
def IsDefined : Operation → Int → Int → Prop
  | .divide, _, right => right ≠ 0
  | .modulo, left, right => right ≠ 0 ∧ ¬(left = -0x8000000000000000 ∧ right = -1)
  | _, _, _ => True

instance decidableIsDefined : (operation : Operation) → (left right : Int) →
    Decidable (operation.IsDefined left right)
  | .plus, _, _ | .minus, _, _ | .times, _, _ => .isTrue trivial
  | .divide, _, right => inferInstanceAs (Decidable (right ≠ 0))
  | .modulo, left, right => inferInstanceAs
      (Decidable (right ≠ 0 ∧ ¬(left = -0x8000000000000000 ∧ right = -1)))

end Operation

/-- The tree of an expression; signs of plus and parentheses leave no trace in it. -/
inductive Expression where
  | literal (digits : Text)
  | negated (operand : Expression)
  | joined (left : Expression) (operation : Operation) (right : Expression)
  deriving DecidableEq, Repr

namespace Expression

def value : Expression → Int
  | .literal digits => digitsValue digits
  | .negated operand => -operand.value
  | .joined left operation right => operation.value left.value right.value

/-- All literals and all values inside the tree are kept exactly, and every operation is defined. -/
def IsExact : Expression → Prop
  | .literal digits => InRange (digitsValue digits)
  | .negated operand => operand.IsExact ∧ InRange (-operand.value)
  | .joined left operation right => left.IsExact ∧ right.IsExact ∧
      operation.IsDefined left.value right.value ∧
      InRange (operation.value left.value right.value)

instance decidableIsExact : (expression : Expression) → Decidable expression.IsExact
  | .literal digits => inferInstanceAs (Decidable (InRange (digitsValue digits)))
  | .negated operand =>
      have := decidableIsExact operand
      inferInstanceAs (Decidable (operand.IsExact ∧ InRange (-operand.value)))
  | .joined left operation right =>
      have := decidableIsExact left
      have := decidableIsExact right
      inferInstanceAs (Decidable (left.IsExact ∧ right.IsExact ∧
        operation.IsDefined left.value right.value ∧
        InRange (operation.value left.value right.value)))

theorem IsExact.inRange {expression : Expression} (exact : expression.IsExact) :
    InRange expression.value := by
  cases expression with
  | literal digits => exact exact
  | negated operand => exact exact.2
  | joined left operation right => exact exact.2.2.2

end Expression

/-- A sum is a chain of terms, and a term is a chain of factors. -/
inductive Phrase where
  | chain (tier : Tier)
  | factor
  | primary
  deriving DecidableEq, Repr

/-- What the operations of a tier join. -/
def Tier.operand : Tier → Phrase
  | .additive => .chain .multiplicative
  | .multiplicative => .factor

/-- The token with any white space in front of it. -/
def Spaced (token text : Text) : Prop :=
  ∃ blanks : Text, blanks.all isBlank = true ∧ text = blanks ++ token

/-- The grammar, with any white space in front of each token. Operations of one tier are joined from
the left. -/
inductive Derives : Phrase → Text → Expression → Prop
  | single {tier : Tier} {text : Text} {expression : Expression}
      (operand : Derives tier.operand text expression) : Derives (.chain tier) text expression
  | joined {first mark last : Text} {left right : Expression} (operation : Operation)
      (before : Derives (.chain operation.tier) first left) (sign : Spaced [operation.sign] mark)
      (operand : Derives operation.tier.operand last right) :
      Derives (.chain operation.tier) (first ++ mark ++ last) (.joined left operation right)
  | negated {mark text : Text} {expression : Expression} (sign : Spaced ['-'] mark)
      (operand : Derives .factor text expression) :
      Derives .factor (mark ++ text) (.negated expression)
  | signed {mark text : Text} {expression : Expression} (sign : Spaced ['+'] mark)
      (operand : Derives .primary text expression) : Derives .factor (mark ++ text) expression
  | unsigned {text : Text} {expression : Expression}
      (operand : Derives .primary text expression) : Derives .factor text expression
  | literal {digits text : Text} (nonempty : digits ≠ [])
      (areDigits : digits.all Char.isDigit = true) (spaced : Spaced digits text) :
      Derives .primary text (.literal digits)
  | enclosed {start text stop : Text} {expression : Expression} (opening : Spaced ['('] start)
      (inner : Derives (.chain .additive) text expression) (closing : Spaced [')'] stop) :
      Derives .primary (start ++ text ++ stop) expression

/-- The text is written for the expression: a sum and white space after it. -/
def Written (text : Text) (expression : Expression) : Prop :=
  ∃ sum blanks : Text, text = sum ++ blanks ∧ Derives (.chain .additive) sum expression ∧
    blanks.all isBlank = true

def Operation.apply : Operation → Int → Int → Except Fault Int
  | .plus, left, right => ranged (left + right)
  | .minus, left, right => ranged (left - right)
  | .times, left, right => ranged (left * right)
  | .divide, left, right => quotient left right
  | .modulo, left, right => remainder left right

theorem ranged_eq_ok {value result : Int} :
    ranged value = .ok result ↔ InRange value ∧ result = value := by
  unfold ranged
  split <;> simp_all [eq_comm]

/-- A quotient is only too large where the least integer is divided by minus one. -/
theorem inRange_tdiv {left right : Int} (inRange : InRange left) :
    InRange (left.tdiv right) ↔ ¬(left = -0x8000000000000000 ∧ right = -1) := by
  by_cases negates : right = -1
  · subst negates
    rw [Int.tdiv_neg, Int.tdiv_one]
    unfold InRange at *
    omega
  · have within : InRange (left.tdiv right) := by
      by_cases one : right = 1
      · rwa [one, Int.tdiv_one]
      · by_cases zero : right = 0
        · rw [zero, Int.tdiv_zero]
          decide
        · have large : 2 ≤ right.natAbs := by omega
          have half : left.natAbs / right.natAbs ≤ left.natAbs / 2 :=
            Nat.div_le_div_left large (by decide)
          have size : (left.tdiv right).natAbs = left.natAbs / right.natAbs :=
            Int.natAbs_tdiv left right
          unfold InRange at *
          omega
    simp [within, negates]

theorem inRange_tmod {left right : Int} (inRange : InRange left) : InRange (left.tmod right) := by
  have size : (left.tmod right).natAbs ≤ left.natAbs := by
    rw [Int.natAbs_tmod]
    exact Nat.mod_le _ _
  unfold InRange at *
  by_cases negative : left < 0
  · have sign : 0 ≤ (-left).tmod right := Int.tmod_nonneg right (by omega)
    rw [Int.neg_tmod] at sign
    omega
  · omega

/-- An operation succeeds exactly when it is defined and its value is kept. -/
theorem apply_eq_ok {operation : Operation} {left right result : Int} (inRange : InRange left) :
    operation.apply left right = .ok result ↔
      (operation.IsDefined left right ∧ InRange (operation.value left right)) ∧
        result = operation.value left right := by
  cases operation with
  | plus | minus | times => simp [Operation.apply, Operation.IsDefined, Operation.value, ranged_eq_ok]
  | divide =>
      by_cases zero : right = 0 <;>
        simp [Operation.apply, Operation.IsDefined, Operation.value, quotient, zero, ranged_eq_ok]
  | modulo =>
      change remainder left right = .ok result ↔
        ((right ≠ 0 ∧ ¬(left = -0x8000000000000000 ∧ right = -1)) ∧
          InRange (left.tmod right)) ∧ result = left.tmod right
      by_cases zero : right = 0
      · simp [remainder, zero]
      · rw [remainder, if_neg zero, ← inRange_tdiv inRange]
        unfold ranged
        by_cases within : InRange (left.tdiv right)
        · simp [within, zero, inRange_tmod inRange, eq_comm]
        · simp [within]

theorem apply_fails {operation : Operation} {left right : Int} (inRange : InRange left)
    (undefined : ¬(operation.IsDefined left right ∧ InRange (operation.value left right))) :
    ∃ fault, operation.apply left right = .error fault := by
  cases applied : operation.apply left right with
  | error fault => exact ⟨fault, rfl⟩
  | ok value => exact absurd ((apply_eq_ok inRange).mp applied).1 undefined

end ManagementShell.Arithmetic

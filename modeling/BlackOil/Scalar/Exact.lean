import BlackOil.Scalar
import BlackOil.Scalar.Binary

/-!
# Exact scalars

The rational numbers and one undefined value as a scalar type. Arithmetic on
rational operands is exact. A quotient by zero is undefined, and so is every
result of an undefined operand. Comparisons with an undefined operand fail; in
particular an undefined value does not equal itself.
-/
namespace BlackOil

inductive Exact where
  | value (q : Rat)
  | undefined
  deriving DecidableEq, Repr

namespace Exact

/-- Applies an operation to two rational operands. -/
def combine (f : Rat → Rat → Exact) : Exact → Exact → Exact
  | value a, value b => f a b
  | _, _ => undefined

/-- Compares two rational operands. -/
def Compare (r : Rat → Rat → Prop) : Exact → Exact → Prop
  | value a, value b => r a b
  | _, _ => False

instance (r : Rat → Rat → Prop) [∀ a b, Decidable (r a b)] : ∀ x y, Decidable (Compare r x y)
  | value a, value b => inferInstanceAs (Decidable (r a b))
  | value _, undefined => inferInstanceAs (Decidable False)
  | undefined, _ => inferInstanceAs (Decidable False)

/-- The quotient of two rational numbers, undefined for the divisor zero. -/
def quotient (a b : Rat) : Exact := if b = 0 then undefined else value (a / b)

/-- The nearest single-precision value of a rational number, undefined where the
number is out of range. -/
def roundToSingle (q : Rat) : Exact :=
  if q = 0 then value 0
  else match Binary.single.round? q.num.natAbs q.den with
    | some r =>
      let size : Rat :=
        (Binary.scaleUp r.significand r.exponent : Rat) / (Binary.scaleUp 1 (-r.exponent) : Rat)
      value (if q < 0 then -size else size)
    | none => undefined

/-- Numerals of infinite size stand for no rational number. -/
def ofNumeral : Numeral → Exact
  | .decimal negative digits exponent =>
    let size := Rat.ofScientific digits (exponent < 0) exponent.natAbs
    value (if negative then -size else size)
  | _ => undefined

def text : Exact → String
  | value q => if q.den = 1 then toString q.num else toString q.num ++ "/" ++ toString q.den
  | undefined => "nan"

instance : Scalar Exact where
  add := combine fun a b => value (a + b)
  sub := combine fun a b => value (a - b)
  mul := combine fun a b => value (a * b)
  div := combine quotient
  neg
    | value a => value (-a)
    | undefined => undefined
  lt := Compare (· < ·)
  le := Compare (· ≤ ·)
  beq x y := decide (Compare (· = ·) x y)
  ofScientific digits negative exponent := value (Rat.ofScientific digits negative exponent)
  decidableLT _ _ := inferInstanceAs (Decidable (Compare _ _ _))
  decidableLE _ _ := inferInstanceAs (Decidable (Compare _ _ _))
  ofNumeral := ofNumeral
  isUndefined x := decide (x = undefined)
  integerPart
    | value q => .integer (q.num.tdiv q.den)
    | undefined => .undefined
  single
    | value q => roundToSingle q
    | undefined => undefined
  text := text

/-- A decimal literal is the rational number that it writes. -/
@[simp] theorem ofScientific_eq (digits : Nat) (negative : Bool) (exponent : Nat) :
    (OfScientific.ofScientific digits negative exponent : Exact) =
      value (OfScientific.ofScientific digits negative exponent) := rfl

@[simp] theorem value_add (a b : Rat) : value a + value b = value (a + b) := rfl

@[simp] theorem value_sub (a b : Rat) : value a - value b = value (a - b) := rfl

@[simp] theorem value_mul (a b : Rat) : value a * value b = value (a * b) := rfl

@[simp] theorem neg_value (a : Rat) : -value a = value (-a) := rfl

@[simp] theorem value_lt (a b : Rat) : value a < value b ↔ a < b := Iff.rfl

@[simp] theorem value_le (a b : Rat) : value a ≤ value b ↔ a ≤ b := Iff.rfl

@[simp] theorem isUndefined_value (a : Rat) : Scalar.isUndefined (value a) = false := rfl

@[simp] theorem isUndefined_undefined : Scalar.isUndefined undefined = true := rfl

theorem value_div {a b : Rat} (h : b ≠ 0) : value a / value b = value (a / b) := if_neg h

theorem value_div_zero (a : Rat) : value a / value 0 = undefined := rfl

theorem value_beq (a b : Rat) : (value a == value b) = decide (a = b) := rfl

theorem not_lt_undefined (x : Exact) : ¬x < undefined := by cases x <;> exact id

theorem not_undefined_lt (x : Exact) : ¬undefined < x := id

example : (0.1 : Exact) + 0.2 = 0.3 := by decide +kernel
example : (1.0 : Exact) / 0.0 = undefined := by decide +kernel
example : Scalar.single (0.1 : Exact) = value (13421773 / 134217728) := by decide +kernel
example : Scalar.integerPart (-2.5 : Exact) = .integer (-2) := by decide +kernel

end Exact
end BlackOil

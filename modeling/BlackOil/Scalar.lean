import BlackOil.Decimal.Numeral
import BlackOil.Word

/-!
# Scalars

The models are written once over a type of scalars and run over IEEE double
precision (`BlackOil.Scalar.Binary64`) or over the rational numbers with one
undefined value (`BlackOil.Scalar.Exact`). A scalar type supplies arithmetic,
comparisons that fail on undefined operands, the reading of numerals, and the
few roundings and texts that a model shows.

`maximum`, `minimum` and `clip` hand an undefined operand on instead of
dropping it.
-/
namespace BlackOil

/-- The integer part of a scalar, where it has one. -/
inductive IntegerPart where
  | integer (n : Int)
  | infinite
  | undefined
  deriving DecidableEq, Repr

class Scalar (α : Type) extends
    Add α, Sub α, Mul α, Div α, Neg α, LT α, LE α, BEq α, OfScientific α where
  decidableLT : DecidableLT α
  decidableLE : DecidableLE α
  ofNumeral : Numeral → α
  isUndefined : α → Bool
  /-- Truncation toward zero. -/
  integerPart : α → IntegerPart
  /-- The nearest value of single precision. -/
  single : α → α
  /-- The text of a scalar inside a message. -/
  text : α → String

namespace Scalar
variable {α : Type} [Scalar α]

instance : DecidableLT α := decidableLT

instance : DecidableLE α := decidableLE

def ofInt (n : Int) : α := ofNumeral (.decimal (n < 0) n.natAbs 0)

def maximum (a b : α) : α := if b ≤ a ∨ isUndefined a then a else b

def minimum (a b : α) : α := if a ≤ b ∨ isUndefined a then a else b

/-- The value between `low` and `high` that is nearest to `a`. -/
def clip (a low high : α) : α := minimum (maximum a low) high

/-- The largest of `a` and the members of `values`. -/
def maximumOf (a : α) (values : List α) : α := values.foldl maximum a

/-- The smallest of `a` and the members of `values`. -/
def minimumOf (a : α) (values : List α) : α := values.foldl minimum a

/-- Truncation to a word. What does not fit becomes the least word. -/
def toWord (a : α) : Int :=
  match integerPart a with
  | .integer n => if Word.fits n then n else Word.least
  | _ => Word.least

/-- The differences of neighbouring values. -/
def steps : List α → List α
  | a :: b :: rest => (b - a) :: steps (b :: rest)
  | _ => []

end Scalar

/-- Floating-point precision of the assembled results. -/
inductive Precision where
  | single
  | double
  deriving DecidableEq, Repr

/-- Rounds a scalar to a precision. -/
def Precision.cast {α : Type} [Scalar α] : Precision → α → α
  | .single, a => Scalar.single a
  | .double, a => a

end BlackOil

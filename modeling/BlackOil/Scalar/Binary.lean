/-!
# Binary rounding

Rounds a positive quotient to the nearest multiple of a power of two that a
binary format holds. A format keeps `precision` significant bits and no bit
below `2^least`. Ties go to the even neighbour.
-/
namespace BlackOil.Binary

structure Format where
  precision : Nat
  least : Int
  /-- Values of at least `2^limit` are out of range. -/
  limit : Int

/-- Single precision. -/
def single : Format := ⟨24, -149, 128⟩

/-- Double precision. -/
def double : Format := ⟨53, -1074, 1024⟩

/-- The value `significand · 2^exponent`. -/
structure Scaled where
  significand : Nat
  exponent : Int
  deriving DecidableEq, Repr

/-- The product `n · 2^e`, or `n` itself where `e` is negative and `2^e` is left to
a denominator. -/
def scaleUp (n : Nat) (e : Int) : Nat := n <<< e.toNat

/-- Whether `2^e ≤ num / den`. -/
def powerLe (e : Int) (num den : Nat) : Bool := scaleUp den e ≤ scaleUp num (-e)

/-- The exponent of the first bit of `num / den`. -/
def magnitude (num den : Nat) : Int :=
  let guess : Int := (num.log2 : Int) - den.log2
  if powerLe guess num den then guess else guess - 1

/-- The natural number nearest to `num / den`, the even one of two. -/
def roundHalfEven (num den : Nat) : Nat :=
  let below := num / den
  let twice := 2 * (num % den)
  if den < twice ∨ (twice = den ∧ below % 2 = 1) then below + 1 else below

/-- The natural number nearest to `n` with no more significant bits than a format keeps. -/
def Format.roundNat (f : Format) (n : Nat) : Nat :=
  let spare := n.log2 + 1 - f.precision
  roundHalfEven n (1 <<< spare) <<< spare

/-- The product of natural numbers in the arithmetic of a format, whatever its limit. -/
def Format.product (f : Format) (factors : List Nat) : Nat :=
  factors.foldl (fun n factor => f.roundNat (n * f.roundNat factor)) 1

/-- The value of a format nearest to the positive quotient `num / den`, or none
where it is out of range. -/
def Format.round? (f : Format) (num den : Nat) : Option Scaled :=
  let exponent := max (magnitude num den - f.precision + 1) f.least
  let significand := roundHalfEven (scaleUp num (-exponent)) (scaleUp den exponent)
  if scaleUp 1 f.limit ≤ scaleUp significand exponent then none
  else some ⟨significand, exponent⟩

example : single.round? 1 10 = some ⟨13421773, -27⟩ := by decide
example : single.round? (2 ^ 128) 1 = none := by decide
example : single.round? 1 (2 ^ 150) = some ⟨0, -149⟩ := by decide
example : single.round? 3 (2 ^ 150) = some ⟨2, -149⟩ := by decide
example : double.product [2 ^ 63 + 1025, 3, 1] = 27670116110564335616 := by decide

end BlackOil.Binary

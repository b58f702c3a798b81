/-!
# Shortest decimals

The decimal with the fewest digits among those that lie in an interval around a
positive number, and of those the nearest to it. The number is a quotient
`num / den`; the interval is given by its ends over the same denominator, and
contains them when `closed` holds.

For each count of digits only the two neighbours of the number on that decimal
grid are tested: where a point of the grid lies in the interval, so does a
neighbour.
-/
namespace BlackOil.Decimal

/-- A positive number `num / den` with the interval of numbers taken for it. -/
structure Target where
  num : Nat
  low : Nat
  high : Nat
  den : Nat
  closed : Bool

/-- The decimal `digits · 10^exponent`. -/
structure Digits where
  digits : Nat
  exponent : Int
  deriving DecidableEq, Repr

/-- The target over the unit `10^exponent`. -/
def Target.scale (t : Target) (exponent : Int) : Target :=
  let up := Nat.pow 10 (-exponent).toNat
  let down := Nat.pow 10 exponent.toNat
  { t with num := t.num * up, low := t.low * up, high := t.high * up, den := t.den * down }

/-- Whether the natural number `n` lies in the interval. -/
def Target.contains (t : Target) (n : Nat) : Bool :=
  if t.closed then t.low ≤ n * t.den && n * t.den ≤ t.high
  else t.low < n * t.den && n * t.den < t.high

/-- The nearer of the two neighbours of the target that lie in its interval. Of
two equally near ones, the even one. -/
def Target.nearest? (t : Target) : Option Nat :=
  let below := t.num / t.den
  let twice := 2 * (t.num % t.den)
  let upFirst := t.den < twice || (twice == t.den && below % 2 == 1)
  let first := if upFirst then below + 1 else below
  let second := if upFirst then below else below + 1
  if t.contains first then some first
  else if t.contains second then some second
  else none

/-- The greatest power of ten that is at most the target, as an exponent, found
by walking at most `fuel` steps from `guess`. -/
def Target.magnitude (t : Target) : Nat → Int → Int
  | 0, guess => guess
  | fuel + 1, guess =>
    let s := t.scale guess
    if s.num < s.den then t.magnitude fuel (guess - 1)
    else if 10 * s.den ≤ s.num then t.magnitude fuel (guess + 1)
    else guess

/-- A power of ten near the target, from the lengths of its two terms in binary. -/
def Target.guess (t : Target) : Int :=
  ((t.num.log2 : Int) - t.den.log2) * 30103 / 100000

/-- Searches the grids of `count`, `count + 1`, … digits, at most `fuel` of them. -/
def Target.search (t : Target) (magnitude : Int) : Nat → Nat → Option Digits
  | 0, _ => none
  | fuel + 1, count =>
    let exponent := magnitude - count + 1
    match (t.scale exponent).nearest? with
    | some digits => some ⟨digits, exponent⟩
    | none => t.search magnitude fuel (count + 1)

/-- The shortest decimal of a target. Seventeen digits tell any two doubles apart. -/
def Target.shortest? (t : Target) : Option Digits :=
  t.search (t.magnitude 4 t.guess) 17 1

example : (Target.mk 1 0 2 3 false).shortest? = some ⟨3, -1⟩ := by cbv

end BlackOil.Decimal

import BlackOil.Scalar

/-!
# Curves

Piecewise linear functions through knots with increasing abscissae. Beyond its
knots a curve is held constant (`held`) or continued along its first and last
segment (`extended`).

Several abscissae at once are sought one after the other by halving (`places`).
In a column whose keys do not fall each is found as it is alone; otherwise the
place of a key may depend on the keys before it.
-/
namespace BlackOil
variable {α β : Type} [Scalar α]

/-- A point of a curve. -/
structure Knot (α : Type) where
  x : α
  y : α
  deriving DecidableEq, Repr

/-- The knots of a curve, at least one. -/
structure Curve (α : Type) where
  first : Knot α
  rest : List (Knot α)

namespace Curve

omit [Scalar α] in
def knots (c : Curve α) : List (Knot α) := c.first :: c.rest

omit [Scalar α] in
def last (c : Curve α) : Knot α := c.rest.getLastD c.first

omit [Scalar α] in
/-- The curve through knots given by two columns of one length, at least one. -/
def ofColumns? (xs ys : List α) : Option (Curve α) :=
  if xs.length = ys.length then
    match List.zipWith Knot.mk xs ys with
    | first :: rest => some ⟨first, rest⟩
    | [] => none
  else none

def slope (p q : Knot α) : α := (q.y - p.y) / (q.x - p.x)

/-- The line through two knots, measured from the first. -/
def line (p q : Knot α) (x : α) : α := slope p q * (x - p.x) + p.y

/-- The line through two knots. An undefined value is measured again from the
second knot, and is the common value of two equal knots where that fails too. -/
def between (p q : Knot α) (x : α) : α :=
  let y := line p q x
  if Scalar.isUndefined y then
    let y' := slope p q * (x - q.x) + q.y
    if Scalar.isUndefined y' && p.y == q.y then p.y else y'
  else y

/-- The value at `x`, given that `p` is at or before `x`. Of knots with one
abscissa the last counts. -/
def heldFrom (p : Knot α) (x : α) : List (Knot α) → α
  | [] => p.y
  | q :: rest =>
    if q.x ≤ x then heldFrom q x rest
    else if p.x == x then p.y
    else between p q x

/-- The curve held constant beyond its first and last knot. -/
def held (c : Curve α) (x : α) : α :=
  if Scalar.isUndefined x then x
  else if c.last.x < x then c.last.y
  else if x < c.first.x then c.first.y
  else heldFrom c.first x c.rest

end Curve

/-- Whether `a` comes before `b`. An undefined value comes after all others. -/
def precedes (a b : α) : Bool := a < b || (Scalar.isUndefined b && !Scalar.isUndefined a)

/-- Two neighbours in a sequence whose keys increase. Those around `x` if there
are such, otherwise the two at the nearer end. -/
def bracket (key : β → α) (x : α) (p q : β) : List β → β × β
  | [] => (p, q)
  | r :: rest => if precedes (key q) x then bracket key x q r rest else (p, q)

/-- Two neighbours in a sequence that is long enough, the lower one at a position or else at
the end. -/
def neighboursAt : Nat → β → β → List β → β × β
  | position + 1, _, q, r :: rest => neighboursAt position q r rest
  | _, p, q, _ => (p, q)

/-- The place of a key in the part of a column from `low` to `high`: the entries before it come
before the key. The part is halved until nothing of it is left. -/
def place (column : Array α) (key : α) (low high : Nat) : Nat :=
  if low < high then
    let middle := low + (high - low) / 2
    if column[middle]?.any (precedes · key) then place column key (middle + 1) high
    else place column key low middle
  else low
termination_by high - low

/-- The places of keys after that of the key before them. A key that comes after the one before
it is sought from the place of that one on, and another key up to there. -/
def placesAfter (column : Array α) (last : α) (found : Nat) : List α → List Nat
  | [] => []
  | key :: keys =>
    let next :=
      if precedes last key then place column key found column.size
      else place column key 0 (min (found + 1) column.size)
    next :: placesAfter column key next keys

/-- The places of keys in a column. -/
def places (column : Array α) : List α → List Nat
  | [] => []
  | key :: keys =>
    let first := place column key 0 column.size
    first :: placesAfter column key first keys

namespace Curve

/-- The curve continued along its first and last segment. A single knot gives a
constant. -/
def extended (c : Curve α) (x : α) : α :=
  match c.rest with
  | [] => c.first.y
  | second :: rest =>
    let (p, q) := bracket Knot.x x c.first second rest
    line p q x

/-- The continued curve at several abscissae. -/
def extendedAll (c : Curve α) (xs : List α) : List α :=
  match c.rest with
  | [] => xs.map fun _ => c.first.y
  | second :: rest =>
    List.zipWith (fun x place =>
        let (p, q) := neighboursAt (place - 1) c.first second rest
        line p q x)
      xs (places (c.knots.map Knot.x).toArray xs)

end Curve
end BlackOil

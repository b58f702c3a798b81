import BlackOil.Grid.Cartesian
import BlackOil.Permeability.Tensor

/-!
# Cell properties

The permeability tensor and the effective porosity of every active cell, and the
multipliers on its six faces.
-/
namespace BlackOil
variable {α : Type} [Scalar α]

/-- The values of an optional keyword in the given cells, one where it is absent. -/
def gatherFactor (deck : Deck α) (keyword : String) (cells : Array Nat) :
    Except Fault (Array α) :=
  match deck.array? keyword with
  | none => .ok (cells.map fun _ => 1.0)
  | some values => gather keyword values.reals cells

/-- The diagonal of the permeability tensor of every active cell. `PERMY` and
`PERMZ` default to `PERMX`. `NTG` scales the first two entries, never the third. -/
def cellDiagonals (deck : Deck α) (t : Topology) : Except Fault (Array (Triple α)) := do
  let permx ← deck.array "PERMX" "intrinsic permeability"
  let permy := (deck.array? "PERMY").getD permx
  let permz := (deck.array? "PERMZ").getD permx
  let cells ← t.cells
  let xs ← gather "PERMX" permx.reals cells
  let ys ← gather "PERMY" permy.reals cells
  let zs ← gather "PERMZ" permz.reals cells
  let ntgs ← gatherFactor deck "NTG" cells
  return ((xs.zip ys).zip (zs.zip ntgs)).map fun ((x, y), (z, ntg)) => ⟨x * ntg, y * ntg, z⟩

/-- The permeability tensor of every active cell, rounded to a precision. -/
def cellPermeabilities (precision : Precision) (deck : Deck α) (t : Topology) :
    Except Fault (Array (Tensor α)) := do
  let diagonals ← cellDiagonals deck t
  return diagonals.map fun d => Tensor.map precision.cast (Tensor.diagonal d)

/-- The effective porosity `PORO * NTG * MULTPV` of every active cell, rounded
to a precision. None may be negative. -/
def cellPorosities (precision : Precision) (deck : Deck α) (t : Topology) :
    Except Fault (Array α) := do
  let cells ← t.cells
  let poro ← deck.array "PORO" "cell porosity"
  let poros ← gather "PORO" poro.reals cells
  let ntgs ← gatherFactor deck "NTG" cells
  let multipliers ← gatherFactor deck "MULTPV" cells
  let porosities := ((poros.zip ntgs).zip multipliers).map fun ((poro, ntg), m) => poro * ntg * m
  if porosities.any (· < 0.0) then throw .negativePorosity
  return porosities.map precision.cast

/-- The multipliers on the faces of every active cell. -/
structure FaceMultipliers (α : Type) where
  /-- Those of the positive sides, `MULTX`, `MULTY` and `MULTZ`. -/
  positive : Array (Triple α)
  /-- Those of the negative sides, `MULTX-`, `MULTY-` and `MULTZ-`. -/
  negative : Array (Triple α)

namespace FaceMultipliers

def ofDeck (deck : Deck α) (t : Topology) : Except Fault (FaceMultipliers α) := do
  let cells ← t.cells
  let xs ← gatherFactor deck "MULTX" cells
  let xs' ← gatherFactor deck "MULTX-" cells
  let ys ← gatherFactor deck "MULTY" cells
  let ys' ← gatherFactor deck "MULTY-" cells
  let zs ← gatherFactor deck "MULTZ" cells
  let zs' ← gatherFactor deck "MULTZ-" cells
  let join (xs ys zs : Array α) := ((xs.zip ys).zip zs).map fun ((x, y), z) => Triple.mk x y z
  return ⟨join xs ys zs, join xs' ys' zs'⟩

omit [Scalar α] in
/-- The multipliers of the inside and of the outside cell of a face. The two
cells see the face from opposite sides. -/
def ofFace (m : FaceMultipliers α) (f : Face) : Except Fault (α × α) := do
  let axis := f.direction.axis
  let (insides, outsides) :=
    if f.direction.positive then (m.positive, m.negative) else (m.negative, m.positive)
  let inside ← entryAt insides f.inside
  let outside ← entryAt outsides f.outside
  return (inside.get axis, outside.get axis)

end FaceMultipliers
end BlackOil

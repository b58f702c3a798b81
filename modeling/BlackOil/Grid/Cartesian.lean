import BlackOil.Deck.Basic
import BlackOil.Grid.Topology
import BlackOil.Scalar.Binary

/-!
# Cartesian grids

A box of `nx * ny * nz` cells with a mask of active ones. Cartesian cells are
counted in the order `i + nx * j + nx * ny * k`, active cells in increasing
cartesian order. The number of cells is a product of machine numbers: of words,
which wraps around where the box is too large for it, unless the dimensions
themselves are no words.
-/
namespace BlackOil

/-- The cartesian cells that a mask leaves active, counted from `cell`. -/
def activeFrom (cell : Nat) : List Bool → List Nat
  | [] => []
  | true :: mask => cell :: activeFrom (cell + 1) mask
  | false :: mask => activeFrom (cell + 1) mask

/-- The active index of each cartesian cell of a mask, counted from `active`. -/
def positionsFrom (active : Nat) : List Bool → List (Option Nat)
  | [] => []
  | true :: mask => some active :: positionsFrom (active + 1) mask
  | false :: mask => none :: positionsFrom active mask

structure CartesianGrid where
  dimensions : Dimensions
  /-- Which cells are active. -/
  mask : List Bool
  /-- The cartesian index of each active cell. -/
  active : Array Nat := (activeFrom 0 mask).toArray
  /-- The active index of each cartesian cell. -/
  positions : Array (Option Nat) := (positionsFrom 0 mask).toArray
  active_eq : active = (activeFrom 0 mask).toArray := by rfl
  positions_eq : positions = (positionsFrom 0 mask).toArray := by rfl

/-- The number of cells as the product of the three sizes in the type that they share.
Words make a word and larger ones that are still unsigned words make an unsigned word;
both wrap around. The two kinds have only doubles in common. Still larger sizes make an
integer without bounds. -/
def Dimensions.cellCount (d : Dimensions) : Int :=
  let sizes := [d.nx, d.ny, d.nz]
  if sizes.all fun n => Word.fits n then Word.wrap d.count
  else if sizes.any (Word.count ≤ ·) then d.count
  else if sizes.any fun n => Word.fits n then Binary.double.product sizes
  else (d.count % Word.count : Nat)

namespace CartesianGrid

/-- The grid of the given sizes; without a mask all its cells are active. No mask has more
entries than a word can count. -/
def ofMask (sizes : List Int) (mask : Option (List Bool)) : Except Fault CartesianGrid :=
  match Dimensions.ofList? sizes with
  | none => .error (.gridDimensions sizes)
  | some dimensions =>
    let count := dimensions.cellCount
    match mask with
    | none =>
      if count < 0 then .error .negativeCellCount
      else if Word.fits count then .ok { dimensions, mask := List.replicate count.toNat true }
      else .error .largeCellCount
    | some mask =>
      if mask.length = count ∧ Word.fits count then .ok { dimensions, mask }
      else .error (.maskSize mask.length count)

/-- The grid of a deck. Cells with a zero under `ACTNUM` are inactive. -/
def ofDeck {α : Type} [Scalar α] (deck : Deck α) : Except Fault CartesianGrid :=
  match deck.dimensions with
  | none => .error (.missingKeyword "DIMENS" "no grid topology was given")
  | some dimensions =>
    ofMask dimensions.toList <| (deck.array? "ACTNUM").map fun values =>
      values.wholes.toList.map (· != 0)

def numActive (g : CartesianGrid) : Nat := g.active.size

def numCartesian (g : CartesianGrid) : Nat := g.positions.size

/-- The cartesian index of an active cell. -/
def cartesianIndex (g : CartesianGrid) (active : Int) : Except Fault Nat :=
  match if active < 0 then none else g.active[active.toNat]? with
  | some cell => .ok cell
  | none => .error (.activeIndex active g.numActive)

/-- The active index of a cartesian cell, if it is active. -/
def activeIndex (g : CartesianGrid) (cell : Int) : Except Fault (Option Nat) :=
  match if cell < 0 then none else g.positions[cell.toNat]? with
  | some position => .ok position
  | none => .error (.cartesianIndex cell g.numCartesian)

/-- The location of a cartesian index. Indices outside the grid go on in the
same pattern. -/
def location (g : CartesianGrid) (cell : Int) : Location :=
  let nx : Int := g.dimensions.nx
  let ny : Int := g.dimensions.ny
  ⟨cell % nx, cell / nx % ny, cell / (nx * ny)⟩

/-- The cartesian index of a location. -/
def index (g : CartesianGrid) (p : Location) : Int :=
  p.i + g.dimensions.nx * p.j + g.dimensions.nx * g.dimensions.ny * p.k

/-- Whether a location lies in the box. -/
def inBox (g : CartesianGrid) (p : Location) : Bool :=
  (0 ≤ p.i && p.i < g.dimensions.nx) && (0 ≤ p.j && p.j < g.dimensions.ny) &&
    (0 ≤ p.k && p.k < g.dimensions.nz)

/-- The face of an active cell in one direction, if an active cell lies there. -/
def face? (g : CartesianGrid) (inside cell : Nat) (direction : Direction) :
    Except Fault (Option Face) :=
  let p := direction.move (g.location cell)
  if g.inBox p then
    match g.positions[(g.index p).toNat]? with
    | some position => .ok (position.map fun outside => ⟨inside, outside, direction⟩)
    | none => .error (.beyondAxis (g.index p) 0 g.numCartesian)
  else .ok none

/-- The faces of an active cell, by direction. -/
def cellFaces (g : CartesianGrid) (inside cell : Nat) : Except Fault (List Face) := do
  let faces ← Direction.all.mapM (g.face? inside cell)
  return faces.filterMap id

/-- The faces between active cells, cell by cell. Each comes once from either side. -/
def faces (g : CartesianGrid) : Except Fault (List Face) := do
  let faces ← g.active.toList.zipIdx.mapM fun (cell, inside) => g.cellFaces inside cell
  return faces.flatten

def topology (g : CartesianGrid) : Topology where
  numCartesian := g.numCartesian
  cartesian := g.active.map Int.ofNat
  faces := g.faces

end CartesianGrid
end BlackOil

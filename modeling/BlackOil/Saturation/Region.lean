import BlackOil.Grid.Cartesian
import BlackOil.Saturation.ThreePhase

/-!
# Saturation regions

One three-phase law for each pair of `SWOF` and `SGOF` tables, and the region of
every active cell. `SATNUM` counts the regions from one; without it every cell
is in the first.
-/
namespace BlackOil
variable {α : Type} [Scalar α]

/-- Cuts values into rows of four; a shorter rest is dropped. -/
def rowsOfFour : List α → List (α × α × α × α)
  | a :: b :: c :: d :: rest => (a, b, c, d) :: rowsOfFour rest
  | _ => []

/-- The rows of a saturation table, whose number counts from one. -/
def saturationRows (keyword : String) (number : Nat) (table : Table α) :
    Except Fault (List (α × α × α × α)) :=
  let values := table.flatten
  if values.length = 0 ∨ values.length % 4 ≠ 0 then
    .error (.tableRows number keyword values.length)
  else if values.any Scalar.isUndefined then .error (.defaultedTable number keyword)
  else .ok (rowsOfFour values)

/-- The law of a region. `SWOF` rows are `(Sw, krw, krow, Pcow)` and `SGOF` rows
`(Sg, krg, krog, Pcgo)`; the gas-oil law is sampled against `So = 1 - Sg`. -/
def ThreePhaseLaw.ofTables (number : Nat) (swof sgof : Table α) :
    Except Fault (ThreePhaseLaw α) := do
  let waterRows ← saturationRows "SWOF" number swof
  let gasRows ← saturationRows "SGOF" number sgof
  let oilWater ← TwoPhaseLaw.ofSamples .water .oil <|
    waterRows.map fun (sw, krw, krow, pc) => ⟨sw, krw, krow, pc⟩
  let gasOil ← TwoPhaseLaw.ofSamples .oil .gas <|
    gasRows.map fun (sg, krg, krog, pc) => ⟨1.0 - sg, krog, krg, pc⟩
  ThreePhaseLaw.ofLaws oilWater gasOil

/-- The laws of a deck, by region. -/
def saturationLaws (deck : Deck α) : Except Fault (List (ThreePhaseLaw α)) := do
  let swof ← deck.tablesOf "SWOF" "oil-water saturation functions"
  let sgof ← deck.tablesOf "SGOF" "gas-oil saturation functions"
  if swof.length ≠ sgof.length then throw (.tableCounts swof.length sgof.length)
  (swof.zip sgof).zipIdx.mapM fun ((swof, sgof), region) =>
    ThreePhaseLaw.ofTables (region + 1) swof sgof

/-- The region that a `SATNUM` value names, a word that counts from zero. -/
def regionOf (number : Int) : Int := Word.wrap (number - 1)

/-- The region of every active cell, one of `count`. -/
def cellRegions (deck : Deck α) (t : Topology) (count : Int) : Except Fault (Array Int) :=
  match deck.array? "SATNUM" with
  | none => .ok (Array.replicate t.numActive 0)
  | some values => do
    let cells ← t.cells
    let numbers ← gather "SATNUM" values.wholes cells
    let regions := numbers.map regionOf
    match regions.findIdx? fun r => r < 0 || count ≤ r with
    | some active => throw (.regionNumber (regions.getD active 0 + 1) active count)
    | none => return regions

structure SaturationFunctions (α : Type) where
  laws : Array (ThreePhaseLaw α)
  /-- The region of every active cell. -/
  regions : Array Nat

namespace SaturationFunctions

omit [Scalar α] in
/-- Laws and the regions of the cells, each of which must have a law. -/
def ofRegions (laws : List (ThreePhaseLaw α)) (regions : Array Int) :
    Except Fault (SaturationFunctions α) :=
  if laws.isEmpty then .error .noRegion
  else if regions.any fun r => r < 0 || (laws.length : Int) ≤ r then
    .error (.regionIndices laws.length)
  else .ok ⟨laws.toArray, regions.map Int.toNat⟩

def ofDeck (deck : Deck α) (t : Topology) : Except Fault (SaturationFunctions α) := do
  let laws ← saturationLaws deck
  let regions ← cellRegions deck t laws.length
  ofRegions laws regions

omit [Scalar α]
variable (f : SaturationFunctions α)

def region (active : Int) : Except Fault Nat :=
  match if active < 0 then none else f.regions[active.toNat]? with
  | some r => .ok r
  | none => .error (.activeIndex active f.regions.size)

/-- The law of an active cell. -/
def law (active : Int) : Except Fault (ThreePhaseLaw α) := do
  let r ← f.region active
  match f.laws[r]? with
  | some law => .ok law
  | none => .error (.regionIndices f.laws.size)

end SaturationFunctions
end BlackOil

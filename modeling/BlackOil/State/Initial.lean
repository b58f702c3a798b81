import BlackOil.Config
import BlackOil.Grid.Cartesian
import BlackOil.Permeability.Tensor
import BlackOil.Pvt.FluidSystem
import BlackOil.State.MoleFraction

/-!
# Initial states

The thermodynamic state of every active cell at the beginning. The oil pressure
holds for every phase, water and gas are pure, and the oil holds the gas that is
dissolved at the cell pressure.
-/
namespace BlackOil
variable {α : Type} [Scalar α]

structure FluidState (α : Type) where
  temperature : α
  saturations : PerPhase α
  pressures : PerPhase α
  moleFractions : PerPhase (PerComponent α)

namespace FluidState

omit [Scalar α] in
def map (f : α → α) (s : FluidState α) : FluidState α :=
  { temperature := f s.temperature
    saturations := s.saturations.map f
    pressures := s.pressures.map f
    moleFractions := s.moleFractions.map (PerComponent.map f) }

end FluidState

/-- The states of the active cells, rounded to a precision. -/
structure InitialStates (α : Type) where
  precision : Precision
  cells : Array (FluidState α)

namespace InitialStates

omit [Scalar α] in
def state (s : InitialStates α) (active : Int) : Except Fault (FluidState α) :=
  match if active < 0 then none else s.cells[active.toNat]? with
  | some state => .ok state
  | none => .error (.activeIndex active s.cells.size)

omit [Scalar α] in
/-- Cuts values into triples; a shorter rest is dropped. -/
def phaseValues : List α → List (PerPhase α)
  | w :: o :: g :: rest => ⟨w, o, g⟩ :: phaseValues rest
  | _ => []

omit [Scalar α] in
/-- States from batches of temperatures, saturations, pressures and mole
fractions, whose first axis counts the cells. -/
def ofBatches (temperature saturations pressures moleFractions : Batch α) :
    Except Fault (InitialStates α) := do
  let count ← match temperature.shape with
    | [] => throw .emptyTable
    | count :: _ => pure count
  let check (field : String) (shape : List Nat) (b : Batch α) : Except Fault Unit :=
    if b.shape = shape then .ok () else .error (.stateShape field shape b.shape)
  check "saturations" [count, 3] saturations
  check "pressures" [count, 3] pressures
  check "mole_fractions" [count, 3, 3] moleFractions
  let fractions := (Tensor.ofValues moleFractions.values).map fun t =>
    let row (r : Triple α) : PerComponent α := ⟨r.x, r.y, r.z⟩
    PerPhase.mk (row t.x) (row t.y) (row t.z)
  let cells := ((temperature.values.zip (phaseValues saturations.values)).zip
      ((phaseValues pressures.values).zip fractions)).map
    fun ((t, s), (p, x)) => FluidState.mk t s p x
  return ⟨.double, cells.toArray⟩

end InitialStates

/-- What a deck says about the initial state of a cell. -/
structure CellData (α : Type) where
  water : α
  gas : α
  pressure : α
  dissolvedGas : α

namespace CellData

/-- The oil saturation, what water and gas leave. -/
def oil (d : CellData α) : α := 1.0 - d.water - d.gas

/-- Whether a saturation leaves `[0, 1]` by more than the tolerance. -/
def inconsistent (tolerance : α) (d : CellData α) : Bool :=
  [d.oil, d.water, d.gas].any fun s => s < -tolerance || 1.0 + tolerance < s

/-- The cells that a deck describes, in active order. -/
def ofDeck (deck : Deck α) (t : Topology) : Except Fault (Array (CellData α)) := do
  let cells ← t.cells
  let read (keyword reason : String) : Except Fault (Array α) := do
    let values ← deck.array keyword reason
    gather keyword values.reals cells
  let waters ← read "SWAT" "initial water saturation"
  let gases ← read "SGAS" "initial gas saturation"
  let pressures ← read "PRESSURE" "initial oil pressure"
  let ratios ← read "RS" "initial dissolved gas"
  return ((waters.zip gases).zip (pressures.zip ratios)).map fun ((w, g), (p, rs)) => ⟨w, g, p, rs⟩

/-- The saturations of every cell must be consistent. -/
def check (tolerance : α) (data : Array (CellData α)) : Except Fault Unit :=
  match data.findIdx? (inconsistent tolerance), data.find? (inconsistent tolerance) with
  | some active, some d =>
    .error (.saturations (data.countP (inconsistent tolerance)) active (Scalar.text d.water)
      (Scalar.text d.gas) (Scalar.text d.oil))
  | _, _ => .ok ()

/-- The dissolved gas of a cell: what the oil can hold, or no more than the deck
says where the deck limits it. -/
def initialGas (f : FluidSystem α) (cap : Bool) (d : CellData α) : α :=
  let saturated := f.saturatedGas d.pressure
  if cap then Scalar.minimum d.dissolvedGas saturated else saturated

/-- The oil volume factor of a cell with its dissolved gas. -/
def initialVolumeFactor (f : FluidSystem α) (floor : α) (cap : Bool) (d : CellData α) : α :=
  f.volumeFactor floor .oil d.pressure (if cap then some (d.initialGas f cap) else none)

/-- The state of a cell whose oil has the given mole fraction of gas. -/
def state (temperature gasInOil : α) (d : CellData α) : FluidState α :=
  { temperature
    saturations := ⟨d.water, d.oil, d.gas⟩
    pressures := ⟨d.pressure, d.pressure, d.pressure⟩
    moleFractions :=
      ⟨⟨1.0, 0.0, 0.0⟩, ⟨0.0, 1.0 - gasInOil, gasInOil⟩, ⟨0.0, 0.0, 1.0⟩⟩ }

end CellData

/-- The densities and masses that the composition of oil depends on. -/
def FluidSystem.oilGas (f : FluidSystem α) : Except Fault (OilGas α) := do
  let oilMass ← f.molarMass .oil
  let gasMass ← f.molarMass .gas
  return {
    oilDensity := f.surfaceDensities.oil
    gasDensity := f.surfaceDensities.gas
    oilMass, gasMass }

/-- The initial states of a deck. -/
def initialStates (precision : Precision) (floor : α) (deck : Deck α) (t : Topology)
    (f : FluidSystem α) (config : Config α) : Except Fault (InitialStates α) := do
  let data ← CellData.ofDeck deck t
  CellData.check config.saturationTolerance data
  let cap := config.capDissolvedGas
  let gases := Batch.ofList (data.toList.map (CellData.initialGas f cap))
  let factors := Batch.ofList (data.toList.map (CellData.initialVolumeFactor f floor cap))
  let composition ← f.oilGas
  let fractions ← composition.moleFractions gases factors
  let cells := (data.zip fractions.values.toArray).map fun (d, x) =>
    (d.state config.temperature x).map precision.cast
  return ⟨precision, cells⟩

end BlackOil

import BlackOil.Constants
import BlackOil.Pvt.DryGas
import BlackOil.Pvt.Water

/-!
# Fluid systems

The pressure-dependent properties of the three phases, their densities at
surface conditions and the molar masses of the components. Every phase has the
volume factor one at its reference point, so a surface density is the density
there.
-/
namespace BlackOil
variable {α : Type} [Scalar α]

/-- A question to the fluids about the entries of batches. -/
inductive FluidQuery (α : Type) where
  | volumeFactor (phase : Phase) (pressure : Batch α) (dissolvedGas : Option (Batch α))
  | density (phase : Phase) (pressure : Batch α) (dissolvedGas : Option (Batch α))
  | viscosity (phase : Phase) (pressure : Batch α)
  | saturatedGas (pressure : Batch α)

structure FluidSystem (α : Type) where
  oil : LiveOil α
  water : Water α
  gas : DryGas α
  surfaceDensities : PerPhase α
  /-- The molar masses that are known. -/
  molarMasses : PerComponent (Option α)

namespace FluidSystem

/-- A fluid system with a positive density for every phase. -/
def ofParts (oil : LiveOil α) (water : Water α) (gas : DryGas α)
    (densities : PerPhase (Option α)) (molarMasses : PerComponent (Option α)) :
    Except Fault (FluidSystem α) :=
  match densities.all? with
  | none => .error (.missingDensities densities.missing)
  | some surfaceDensities =>
    if surfaceDensities.toList.any (· ≤ 0.0) then .error .nonPositiveDensity
    else .ok { oil, water, gas, surfaceDensities, molarMasses }

/-- The densities of a record in the order oil, water, gas. -/
def readDensities : Record α → Except Fault (PerPhase α)
  | oil :: water :: gas :: _ =>
    if [oil, water, gas].any Scalar.isUndefined then .error .densityItems
    else .ok { oil, water, gas }
  | _ => .error .densityItems

omit [Scalar α] in
/-- The first table under a keyword. -/
def firstTable (deck : Deck α) (keyword reason : String) : Except Fault (Table α) := do
  let tables ← deck.tablesOf keyword reason
  match tables with
  | table :: _ => return table
  | [] => throw .emptyTable

/-- The fluid system of a deck, from the first table of each keyword. Without any
molar mass the masses of the constants are taken. -/
def ofDeck (constants : Constants α) (deck : Deck α) (molarMasses : PerComponent (Option α)) :
    Except Fault (FluidSystem α) := do
  let oil ← LiveOil.ofTable (← firstTable deck "PVTO" "live oil PVT")
  let water ← Water.ofTable (← firstTable deck "PVTW" "water PVT")
  let gas ← DryGas.ofTable (← firstTable deck "PVDG" "dry gas PVT")
  let densities ← match (← firstTable deck "DENSITY" "surface densities") with
    | record :: _ => readDensities record
    | [] => throw .emptyTable
  let masses :=
    if molarMasses.toList.all Option.isNone then constants.molarMasses.map some else molarMasses
  ofParts oil water gas (densities.map some) masses

variable (f : FluidSystem α)

/-- The volume factor of every phase at its reference point. -/
def referenceVolumeFactors : PerPhase α := ⟨1.0, 1.0, 1.0⟩

/-- The dissolved gas of oil saturated at a pressure. -/
def saturatedGas (pressure : α) : α := f.oil.saturatedGas pressure

/-- The volume factor of a phase; the dissolved gas counts for oil alone, which
is saturated without it. -/
def volumeFactor (floor : α) (phase : Phase) (pressure : α) (dissolvedGas : Option α) : α :=
  match phase, dissolvedGas with
  | .oil, some rs => f.oil.volumeFactor floor pressure rs
  | .oil, none => f.oil.saturatedVolumeFactor floor pressure
  | .water, _ => f.water.volumeFactor floor pressure
  | .gas, _ => f.gas.volumeFactor floor pressure

/-- The volume factors of a phase for batches. -/
def volumeFactorBatch (floor : α) (phase : Phase) (pressure : Batch α)
    (dissolvedGas : Option (Batch α)) : Except Fault (Batch α) :=
  match phase with
  | .oil => f.oil.volumeFactorBatch floor pressure dissolvedGas
  | .water => .ok (pressure.map (f.water.volumeFactor floor))
  | .gas => .ok (pressure.mapAll (f.gas.volumeFactors floor))

/-- The density of a phase, its surface density over its volume factor. -/
def density (floor : α) (phase : Phase) (pressure : α) (dissolvedGas : Option α) : α :=
  f.surfaceDensities.get phase / f.volumeFactor floor phase pressure dissolvedGas

/-- The densities of a phase for batches. A single zero volume factor is a division by
zero. -/
def densityBatch (floor : α) (phase : Phase) (pressure : Batch α)
    (dissolvedGas : Option (Batch α)) : Except Fault (Batch α) := do
  let factors ← f.volumeFactorBatch floor phase pressure dissolvedGas
  if factors.shape.isEmpty && factors.values.any (· == 0.0) then throw .divisionByZero
  return factors.map (f.surfaceDensities.get phase / ·)

/-- The viscosities of a phase at several pressures. -/
def viscosities (floor : α) (phase : Phase) (pressures : List α) : List α :=
  match phase with
  | .oil => f.oil.viscosities floor pressures
  | .water => pressures.map f.water.viscosity
  | .gas => f.gas.viscosities floor pressures

/-- The answer to a question, with the least value of what is read from a table. -/
def answer (floor : α) : FluidQuery α → Except Fault (Batch α)
  | .volumeFactor phase pressure gas => f.volumeFactorBatch floor phase pressure gas
  | .density phase pressure gas => f.densityBatch floor phase pressure gas
  | .viscosity phase pressure => .ok (pressure.mapAll (f.viscosities floor phase))
  | .saturatedGas pressure => .ok (pressure.mapAll f.oil.saturatedGases)

omit [Scalar α] in
def molarMass (component : Component) : Except Fault α :=
  match f.molarMasses.get component with
  | some mass => .ok mass
  | none => .error (.missingMass component)

end FluidSystem
end BlackOil

import BlackOil.Saturation.TwoPhase

/-!
# Three-phase laws

An oil-water law and a gas-oil law, with oil as the wetting phase of the second,
joined into one law of three phases. The oil relative permeability is the mean
of the two laws' values, weighted by the gas saturation and by the water
saturation above the connate one.
-/
namespace BlackOil
variable {α : Type} [Scalar α]

/-- The oil relative permeability from the value `kroWater` of the oil-water law
at `water + gas` and the value `kroGas` of the gas-oil law at `1 - gas`. Where the
weights vanish it is `kroWater`. -/
def oilRelativePermeability (connate kroWater kroGas water gas : α) : α :=
  let waterWeight := Scalar.maximum (water - connate) 0.0
  let gasWeight := Scalar.maximum gas 0.0
  let total := waterWeight + gasWeight
  if 1e-12 < total then (gasWeight * kroGas + waterWeight * kroWater) / total else kroWater

/-- `oilRelativePermeability` entry by entry. -/
def oilRelativePermeabilityBatch (connate : α) (kroWater kroGas water gas : Batch α) :
    Except Fault (Batch α) := do
  let laws ← Batch.combine Prod.mk kroWater kroGas
  let saturations ← Batch.combine Prod.mk water gas
  Batch.combine
    (fun (kroWater, kroGas) (water, gas) =>
      oilRelativePermeability connate kroWater kroGas water gas)
    laws saturations

structure ThreePhaseLaw (α : Type) where
  oilWater : TwoPhaseLaw α
  gasOil : TwoPhaseLaw α

namespace ThreePhaseLaw

omit [Scalar α] in
def ofLaws (oilWater gasOil : TwoPhaseLaw α) : Except Fault (ThreePhaseLaw α) :=
  if ¬(oilWater.wetting = .water ∧ oilWater.nonWetting = .oil) then .error .oilWaterPhases
  else if ¬(gasOil.wetting = .oil ∧ gasOil.nonWetting = .gas) then .error .gasOilPhases
  else .ok ⟨oilWater, gasOil⟩

variable (law : ThreePhaseLaw α)

omit [Scalar α] in
/-- The lowest water saturation of the oil-water law. -/
def connateWater : α := law.oilWater.leastSaturation

def krWater (water : α) : α := law.oilWater.krWetting water

def krGas (gas : α) : α := law.gasOil.krNonWetting (1.0 - gas)

/-- The oil relative permeability of the oil-water law. -/
def kroWater (water gas : α) : α := law.oilWater.krNonWetting (water + gas)

/-- The oil relative permeability of the gas-oil law. -/
def kroGas (gas : α) : α := law.gasOil.krWetting (1.0 - gas)

def krOil (water gas : α) : α :=
  oilRelativePermeability law.connateWater (law.kroWater water gas) (law.kroGas gas) water gas

def oilWaterPressure (water : α) : α := law.oilWater.capillaryPressure water

def gasOilPressure (gas : α) : α := law.gasOil.capillaryPressure (1.0 - gas)

/-- All values at a water and a gas saturation. -/
def evaluate (water gas : α) : Evaluation α :=
  { kr := ⟨law.krWater water, law.krOil water gas, law.krGas gas⟩
    oilWater := law.oilWaterPressure water
    gasOil := law.gasOilPressure gas }

/-- The values for batches of saturations. Each has the shape of the saturations
that it depends on. -/
def evaluateBatch (saturations : PerPhase (Batch α)) : Except Fault (Evaluation (Batch α)) := do
  let water := saturations.water
  let gas := saturations.gas
  let krOil ← Batch.combine law.krOil water gas
  return {
    kr := ⟨water.map law.krWater, krOil, gas.map law.krGas⟩
    oilWater := water.map law.oilWaterPressure
    gasOil := gas.map law.gasOilPressure }

end ThreePhaseLaw
end BlackOil

import BlackOil.Constants

/-!
# Configuration

How a model is initialised: its constants, the uniform temperature, the
tolerance on saturations, the molar masses, and whether the deck limits the
dissolved gas. What is not given comes from the constants.
-/
namespace BlackOil
variable {α : Type} [Scalar α]

structure Config (α : Type) where
  constants : Constants α
  temperature : α
  saturationTolerance : α
  molarMasses : PerComponent α
  /-- Whether `RS` limits the dissolved gas of the initial oil. -/
  capDissolvedGas : Bool

/-- The settings that are given. -/
structure Settings (α : Type) where
  constants : Constants α := {}
  temperature : Option α := none
  saturationTolerance : Option α := none
  molarMasses : Option (PerComponent (Option α)) := none
  capDissolvedGas : Bool := false

namespace Config

/-- The molar masses must be there for every component, and positive. -/
def checkMasses (masses : PerComponent (Option α)) : Except Fault (PerComponent α) :=
  match masses.all? with
  | none => .error (.missingMasses masses.missing)
  | some masses =>
    if masses.toList.any (· ≤ 0.0) then .error .nonPositiveMass else .ok masses

/-- The configuration of the given settings, checked field by field. -/
def ofSettings (s : Settings α) : Except Fault (Config α) := do
  let temperature := s.temperature.getD (s.constants.get .reservoirTemperature)
  let tolerance := s.saturationTolerance.getD 1e-6
  let refuse (field relation limit : String) (value : α) : Except Fault Unit :=
    .error (.outOfBounds field relation limit (Scalar.text value))
  if ¬(0.0 < temperature) then refuse "temperature" ">" "0" temperature
  if ¬(0.0 ≤ tolerance) then refuse "saturation_tolerance" ">=" "0" tolerance
  if ¬(tolerance ≤ 1e-2) then refuse "saturation_tolerance" "<=" "0.01" tolerance
  let masses ← checkMasses (s.molarMasses.getD (s.constants.molarMasses.map some))
  return {
    constants := s.constants
    temperature
    saturationTolerance := tolerance
    molarMasses := masses
    capDissolvedGas := s.capDissolvedGas }

end Config
end BlackOil

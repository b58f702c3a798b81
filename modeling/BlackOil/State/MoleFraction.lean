import BlackOil.Batch

/-!
# Mole fraction of dissolved gas

The mass fraction `X = Rs * ρg / (ρo / Bo)` of gas in oil and the mole fraction
`x = X * Mo / ((Mo - Mg) * X + Mg)` that it amounts to.
-/
namespace BlackOil
variable {α : Type} [Scalar α]

/-- The surface densities and molar masses of oil and gas. -/
structure OilGas (α : Type) where
  oilDensity : α
  gasDensity : α
  oilMass : α
  gasMass : α

namespace OilGas

/-- The mass fraction of gas in oil. -/
def massFraction (m : OilGas α) (dissolvedGas volumeFactor : α) : α :=
  dissolvedGas * m.gasDensity / (m.oilDensity / volumeFactor)

/-- The mole fraction that a mass fraction amounts to. -/
def moleFraction (m : OilGas α) (massFraction : α) : α :=
  (massFraction * m.oilMass) / ((m.oilMass - m.gasMass) * massFraction + m.gasMass)

/-- The mole fractions entry by entry. No mass fraction may leave `[0, 1]`. -/
def moleFractions (m : OilGas α) (dissolvedGas volumeFactor : Batch α) :
    Except Fault (Batch α) := do
  let fractions ← Batch.combine m.massFraction dissolvedGas volumeFactor
  match fractions.values with
  | first :: rest =>
    if fractions.values.any fun X => X < 0.0 || 1.0 < X then
      throw (.massFractions (Scalar.text (Scalar.minimumOf first rest))
        (Scalar.text (Scalar.maximumOf first rest)))
  | [] => pure ()
  return fractions.map m.moleFraction

end OilGas
end BlackOil

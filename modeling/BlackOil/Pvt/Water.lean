import BlackOil.Deck.Basic

/-!
# Water

Water of constant compressibility and viscosibility around a reference pressure.
-/
namespace BlackOil
variable {α : Type} [Scalar α]

structure Water (α : Type) where
  referencePressure : α
  referenceVolumeFactor : α
  compressibility : α
  referenceViscosity : α
  viscosibility : α

/-- The field must be positive. -/
def checkPositive (field : String) (value : α) : Except Fault Unit :=
  if 0.0 < value then .ok () else .error (.outOfBounds field ">" "0" (Scalar.text value))

namespace Water

/-- The reference values must be positive. An undefined viscosibility is zero. -/
def ofFields (referencePressure referenceVolumeFactor compressibility referenceViscosity
    viscosibility : α) : Except Fault (Water α) := do
  checkPositive "reference_volume_factor" referenceVolumeFactor
  checkPositive "reference_viscosity" referenceViscosity
  return {
    referencePressure, referenceVolumeFactor, compressibility, referenceViscosity
    viscosibility := if Scalar.isUndefined viscosibility then 0.0 else viscosibility }

/-- Water from the first record of a table: the reference pressure and volume
factor, the compressibility, the reference viscosity and perhaps the
viscosibility. -/
def ofTable (table : Table α) : Except Fault (Water α) :=
  match table with
  | [] => .error .emptyTable
  | (pressure :: factor :: compressibility :: viscosity :: rest) :: _ =>
    if [pressure, factor, compressibility, viscosity].any Scalar.isUndefined then
      .error .defaultedWater
    else ofFields pressure factor compressibility viscosity (rest.headD 0.0)
  | record :: _ => .error (.waterItems record.length)

/-- `1 + x + x² / 2`. -/
def expansion (x : α) : α := 1.0 + x + 0.5 * x * x

variable (w : Water α)

def volumeFactor (floor pressure : α) : α :=
  let x := w.compressibility * (pressure - w.referencePressure)
  Scalar.maximum (w.referenceVolumeFactor / expansion x) floor

def viscosity (pressure : α) : α :=
  let y := -w.viscosibility * (pressure - w.referencePressure)
  w.referenceViscosity / expansion y

end Water
end BlackOil

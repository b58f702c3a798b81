import BlackOil.Pvt.LiveOil

/-!
# Dry gas

Gas without vaporised oil: volume factor and viscosity tabulated against
pressure, neither below a floor.
-/
namespace BlackOil
variable {α : Type} [Scalar α]

structure GasRow (α : Type) where
  pressure : α
  volumeFactor : α
  viscosity : α
  deriving DecidableEq, Repr

/-- A table of at least two rows. -/
structure DryGas (α : Type) where
  first : GasRow α
  second : GasRow α
  rest : List (GasRow α)

namespace DryGas

omit [Scalar α] in
def rows (g : DryGas α) : List (GasRow α) := g.first :: g.second :: g.rest

/-- A table from columns of one length. -/
def ofColumns (pressures volumeFactors viscosities : List α) : Except Fault (DryGas α) := do
  if pressures.length < 2 then throw .fewGasRows
  checkIncreasing .gasPressures pressures
  if [volumeFactors, viscosities].any (·.length ≠ pressures.length) then throw .unequalColumns
  match (pressures.zip (volumeFactors.zip viscosities)).map fun (p, bg, mu) => GasRow.mk p bg mu with
  | first :: second :: rest => return ⟨first, second, rest⟩
  | _ => throw .fewGasRows

/-- A table from records whose items form rows of pressure, volume factor and
viscosity. -/
def ofTable (table : Table α) : Except Fault (DryGas α) :=
  let values := table.flatten
  if table.isEmpty then .error .emptyGasTable
  else if values.length % 3 ≠ 0 then .error (.gasItems values.length)
  else if values.any Scalar.isUndefined then .error .defaultedGas
  else
    let rows := LiveOil.rowsOfThree values
    ofColumns (rows.map (·.1)) (rows.map (·.2.1)) (rows.map (·.2.2))

variable (g : DryGas α)

omit [Scalar α] in
/-- One quantity of the rows against pressure. -/
def curve (y : GasRow α → α) : Curve α :=
  let knot (r : GasRow α) : Knot α := ⟨r.pressure, y r⟩
  ⟨knot g.first, knot g.second :: g.rest.map knot⟩

def volumeFactor (floor pressure : α) : α :=
  Scalar.maximum ((g.curve GasRow.volumeFactor).extended pressure) floor

/-- The volume factors at several pressures. -/
def volumeFactors (floor : α) (pressures : List α) : List α :=
  ((g.curve GasRow.volumeFactor).extendedAll pressures).map (Scalar.maximum · floor)

/-- The viscosities at several pressures. -/
def viscosities (floor : α) (pressures : List α) : List α :=
  ((g.curve GasRow.viscosity).extendedAll pressures).map (Scalar.maximum · floor)

end DryGas
end BlackOil

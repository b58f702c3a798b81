import BlackOil.Proofs.Saturation.Tables

/-!
# Evaluated laws

What a three-phase law answers to a water and a gas saturation. The oil relative
permeability is the weighted mean of the values of its two laws. It is the value of the
oil-water law where there is no gas, and that of the gas-oil law where there is gas and no
water above the connate one.
-/
namespace BlackOil

/-- Applies a function to all values. -/
def Evaluation.map {β γ : Type} (f : β → γ) (e : Evaluation β) : Evaluation γ :=
  ⟨e.kr.map f, f e.oilWater, f e.gasOil⟩

namespace ThreePhaseLaw
variable {α : Type} [Scalar α]

/-- The values that the law gives at a water and a gas saturation, whatever is said of oil. -/
def Gives (law : ThreePhaseLaw α) (water gas : α) (e : Evaluation α) : Prop :=
  ∀ oil : Batch α,
    law.evaluateBatch ⟨.scalar water, oil, .scalar gas⟩ = .ok (e.map Batch.scalar)

theorem gives_evaluate (law : ThreePhaseLaw α) (water gas : α) :
    law.Gives water gas (law.evaluate water gas) := fun _ => rfl

end ThreePhaseLaw

/-- The oil relative permeability of rational values is their mean, weighted by the water
above the connate one and by the gas, or the first where the weights vanish. -/
theorem oilRelativePermeability_value (connate kroWater kroGas water gas : Rat) :
    oilRelativePermeability (Exact.value connate) (.value kroWater) (.value kroGas)
        (.value water) (.value gas) =
      .value (if 1e-12 < max (water - connate) 0 + max gas 0 then
        (max gas 0 * kroGas + max (water - connate) 0 * kroWater) /
          (max (water - connate) 0 + max gas 0)
      else kroWater) := by
  have hwater : Scalar.maximum (Exact.value water - .value connate) 0.0 =
      .value (max (water - connate) 0) := by
    rw [Exact.zero_eq, Exact.value_sub, Exact.maximum_value]
  have hgas : Scalar.maximum (Exact.value gas) 0.0 = .value (max gas 0) := by
    rw [Exact.zero_eq, Exact.maximum_value]
  simp only [oilRelativePermeability, hwater, hgas, Exact.value_add, Exact.value_mul]
  simp only [Exact.ofScientific_eq, Exact.value_lt]
  split
  · rename_i h
    exact Exact.value_div (by linarith)
  · rfl

theorem oilRelativePermeability_of_no_gas (connate kroWater kroGas water : Rat) :
    oilRelativePermeability (Exact.value connate) (.value kroWater) (.value kroGas)
      (.value water) (.value 0) = .value kroWater := by
  rw [oilRelativePermeability_value, max_self, zero_mul, zero_add, add_zero]
  split
  · rename_i h
    have hne : max (water - connate) 0 ≠ 0 := by linarith
    rw [mul_comm, mul_div_cancel_right₀ _ hne]
  · rfl

theorem oilRelativePermeability_of_connate {connate water gas : Rat} (hwater : water ≤ connate)
    (hgas : 1e-12 < gas) (kroWater kroGas : Rat) :
    oilRelativePermeability (Exact.value connate) (.value kroWater) (.value kroGas)
      (.value water) (.value gas) = .value kroGas := by
  have hpos : 0 < gas := by linarith
  rw [oilRelativePermeability_value, max_eq_right (sub_nonpos.mpr hwater),
    max_eq_left hpos.le, zero_mul, zero_add, add_zero, if_pos hgas, mul_comm,
    mul_div_cancel_right₀ _ hpos.ne']

/-- The oil relative permeability lies between the values of the two laws. -/
theorem oilRelativePermeability_within (connate kroWater kroGas water gas : Rat) :
    Exact.Within [.value kroWater, .value kroGas]
      (oilRelativePermeability (Exact.value connate) (.value kroWater) (.value kroGas)
        (.value water) (.value gas)) := by
  rw [oilRelativePermeability_value]
  split
  · rename_i h
    have hmean := weightedMean_mem (le_max_right (water - connate) 0) (le_max_right gas 0)
      (by linarith) kroWater kroGas
    rw [add_comm (max gas 0 * kroGas)]
    exact .of_between List.mem_cons_self (by simp) hmean.1 hmean.2
  · exact .of_mem List.mem_cons_self

namespace ThreePhaseLaw.Tabulates
variable {law : ThreePhaseLaw Exact} {waterRows gasRows : List (SaturationRow Exact)}

theorem exists_kroWater (h : law.Tabulates waterRows gasRows) (water gas : Rat) :
    ∃ q, law.kroWater (.value water) (.value gas) = .value q :=
  (h.oilWater.held_within isQuantity_nonWetting (water + gas)).exists_value

theorem exists_kroGas (h : law.Tabulates waterRows gasRows) (gas : Rat) :
    ∃ q, law.kroGas (.value gas) = .value q := by
  rw [kroGas, Exact.one_eq, Exact.value_sub]
  exact (h.gasOil.held_within isQuantity_wetting (1 - gas)).exists_value

theorem exists_connateWater (h : law.Tabulates waterRows gasRows) :
    ∃ q, law.connateWater = .value q := by
  obtain ⟨a, b, c, d, hs⟩ := h.oilWater.rational law.oilWater.first List.mem_cons_self
  exact ⟨a, by rw [connateWater, TwoPhaseLaw.leastSaturation, hs]⟩

end ThreePhaseLaw.Tabulates
end BlackOil

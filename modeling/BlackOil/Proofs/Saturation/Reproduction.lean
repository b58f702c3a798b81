import BlackOil.Proofs.Saturation.Evaluation

/-!
# Reproduced saturation tables

A law that tabulates rows with strictly monotone saturations gives their values back. The
rows of the oil-water table are found without gas, those of the gas-oil table at the connate
water saturation or below.
-/
namespace BlackOil

/-- The values rise strictly or fall strictly. -/
def StrictlyMonotone (column : List Exact) : Prop :=
  column.Pairwise (· < ·) ∨ column.Pairwise fun a b => b < a

instance (column : List Exact) : Decidable (StrictlyMonotone column) :=
  inferInstanceAs (Decidable (_ ∨ _))

theorem StrictlyMonotone.pairwise {column : List Exact} (h : StrictlyMonotone column) :
    column.Pairwise fun a b => a < b ∨ b < a :=
  h.elim (List.Pairwise.imp .inl) (List.Pairwise.imp .inr)

theorem distinct_waterSamples {rows : List (SaturationRow Exact)}
    (h : StrictlyMonotone (rows.map Prod.fst)) :
    (rows.map waterSample).Pairwise fun s t => s.saturation ≠ t.saturation := by
  refine List.pairwise_map.mpr ((List.pairwise_map.mp h.pairwise).imp fun hlt => ?_)
  obtain hlt | hlt := hlt
  · exact Exact.ne_of_lt hlt
  · exact (Exact.ne_of_lt hlt).symm

theorem one_sub_ne {a b : Exact} (h : a < b) : 1.0 - a ≠ 1.0 - b := by
  obtain ⟨p, q, rfl, rfl, hlt⟩ := Exact.lt_iff.mp h
  rw [Exact.one_eq, Exact.value_sub, Exact.value_sub]
  intro heq
  have := Exact.value.inj heq
  linarith

theorem distinct_gasSamples {rows : List (SaturationRow Exact)}
    (h : StrictlyMonotone (rows.map Prod.fst)) :
    (rows.map gasSample).Pairwise fun s t => s.saturation ≠ t.saturation := by
  refine List.pairwise_map.mpr ((List.pairwise_map.mp h.pairwise).imp fun hlt => ?_)
  obtain hlt | hlt := hlt
  · exact one_sub_ne hlt
  · exact (one_sub_ne hlt).symm

namespace ThreePhaseLaw

/-- The law gives the rows of the two tables back. -/
structure Reproduces (law : ThreePhaseLaw Exact)
    (waterRows gasRows : List (SaturationRow Exact)) : Prop where
  water : ∀ row ∈ waterRows, ∃ e, law.Gives row.1 (.value 0) e ∧
    e.kr.water = row.2.1 ∧ e.kr.oil = row.2.2.1 ∧ e.oilWater = row.2.2.2
  /-- Without water above the connate one, and with a trace of gas at least for oil. -/
  gas : ∀ row ∈ gasRows, ∀ water ≤ law.connateWater, ∃ e, law.Gives water row.1 e ∧
    e.kr.gas = row.2.1 ∧ e.gasOil = row.2.2.2 ∧ (1e-12 < row.1 → e.kr.oil = row.2.2.1)

namespace Tabulates
variable {law : ThreePhaseLaw Exact} {waterRows gasRows : List (SaturationRow Exact)}

theorem reproduces (h : law.Tabulates waterRows gasRows)
    (hwater : StrictlyMonotone (waterRows.map Prod.fst))
    (hgas : StrictlyMonotone (gasRows.map Prod.fst)) : law.Reproduces waterRows gasRows := by
  obtain ⟨connate, hconnate⟩ := h.exists_connateWater
  constructor
  · intro row hrow
    have hheld : ∀ {quantity : Sample Exact → Exact}, IsQuantity quantity →
        (law.oilWater.curve quantity).held row.1 = quantity (waterSample row) :=
      fun hq => h.oilWater.held_of_mem hq (distinct_waterSamples hwater)
        (List.mem_map_of_mem hrow)
    obtain ⟨sw, krw, krow, pc, rfl⟩ := h.water_rational row hrow
    obtain ⟨kg, hkg⟩ := h.exists_kroGas 0
    have hkw : law.kroWater (.value sw) (.value 0) = .value krow := by
      rw [kroWater, Exact.value_add, add_zero]
      exact hheld isQuantity_nonWetting
    refine ⟨_, law.gives_evaluate _ _, hheld isQuantity_wetting, ?_, hheld isQuantity_capillary⟩
    simp only [evaluate, krOil, hconnate, hkw, hkg]
    exact oilRelativePermeability_of_no_gas connate krow kg sw
  · intro row hrow water hle
    have hheld : ∀ {quantity : Sample Exact → Exact}, IsQuantity quantity →
        (law.gasOil.curve quantity).held (1.0 - row.1) = quantity (gasSample row) :=
      fun hq => h.gasOil.held_of_mem hq (distinct_gasSamples hgas) (List.mem_map_of_mem hrow)
    obtain ⟨sg, krg, krog, pc, rfl⟩ := h.gas_rational row hrow
    rw [hconnate] at hle
    obtain ⟨sw, _, rfl, hvalue, hle⟩ := Exact.le_iff.mp hle
    cases hvalue
    obtain ⟨kw, hkw⟩ := h.exists_kroWater sw sg
    have hkg : law.kroGas (.value sg) = .value krog := hheld isQuantity_wetting
    refine ⟨_, law.gives_evaluate _ _, hheld isQuantity_nonWetting,
      hheld isQuantity_capillary, fun htrace => ?_⟩
    rw [Exact.ofScientific_eq, Exact.value_lt] at htrace
    simp only [evaluate, krOil, hconnate, hkw, hkg]
    exact oilRelativePermeability_of_connate hle htrace kw krog

end Tabulates

/-- The law of a region gives the rows of its two tables back if their first columns are
strictly monotone. -/
theorem exists_reproduces_of_saturationLaws {deck : Deck Exact}
    {laws : List (ThreePhaseLaw Exact)} (h : saturationLaws deck = .ok laws) {region : Nat}
    {law : ThreePhaseLaw Exact} (hlaw : laws[region]? = some law) :
    ∃ waterRows gasRows, deck.HoldsRows "SWOF" region waterRows ∧
      deck.HoldsRows "SGOF" region gasRows ∧
      (StrictlyMonotone (waterRows.map Prod.fst) → StrictlyMonotone (gasRows.map Prod.fst) →
        law.Reproduces waterRows gasRows) := by
  obtain ⟨waterRows, gasRows, hwater, hgas, htabulates⟩ := exists_tabulates h hlaw
  exact ⟨waterRows, gasRows, hwater, hgas, htabulates.reproduces⟩

/-- The second region of two, whose water saturations fall. -/
theorem exists_reproduces_of_saturationLaws_falling : ∃ laws law,
    saturationLaws twoRegions = .ok laws ∧ laws[1]? = some law ∧
      law.Reproduces [(1.0, 0.9, 0.0, 0.0), (0.6, 0.2, 0.3, 1e4), (0.1, 0.0, 0.8, 2e4)]
        [(0.0, 0.0, 0.8, 0.0), (0.3, 0.2, 0.4, 5e3), (0.9, 0.7, 0.0, 1e4)] := by
  have hbuilt : (saturationLaws twoRegions).toOption.isSome := by decide +kernel
  obtain ⟨laws, h⟩ := Outcome.exists_ok_of_isSome hbuilt
  have hcount : (saturationLaws twoRegions).toOption.map List.length = some 2 := by
    decide +kernel
  rw [h] at hcount
  have hlt : 1 < laws.length := by
    rw [Option.some.inj hcount]
    decide
  have hlaw := List.getElem?_eq_getElem hlt
  obtain ⟨waterRows, gasRows, hwater, hgas, hreproduces⟩ :=
    exists_reproduces_of_saturationLaws h hlaw
  obtain rfl := hwater.rows_eq rfl rfl
  obtain rfl := hgas.rows_eq rfl rfl
  exact ⟨laws, _, h, hlaw, hreproduces (by decide +kernel) (by decide +kernel)⟩

end ThreePhaseLaw
end BlackOil

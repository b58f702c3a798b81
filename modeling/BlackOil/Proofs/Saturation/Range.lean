import BlackOil.Proofs.Saturation.Evaluation
import BlackOil.Proofs.Saturation.Region

/-!
# Ranges of saturation functions

Whatever the saturations are, the law of a cell answers with relative permeabilities and
capillary pressures in the range of the columns of its tables, and the oil relative
permeability lies between the values of its two laws. Nothing is divided by zero, also where
a table repeats a saturation.
-/
namespace BlackOil

namespace ThreePhaseLaw

/-- All that the evaluation of a law divides by. -/
def divisors {α : Type} [Scalar α] (law : ThreePhaseLaw α) (water gas : α) : List α :=
  let weight := Scalar.maximum (water - law.connateWater) 0.0 + Scalar.maximum gas 0.0
  ([(law.oilWater.curve Sample.wetting).divisor water,
    (law.oilWater.curve Sample.nonWetting).divisor (water + gas),
    (law.oilWater.curve Sample.capillary).divisor water,
    (law.gasOil.curve Sample.wetting).divisor (1.0 - gas),
    (law.gasOil.curve Sample.nonWetting).divisor (1.0 - gas),
    (law.gasOil.curve Sample.capillary).divisor (1.0 - gas)] ++
    [if 1e-12 < weight then some weight else none]).filterMap id

/-- The values `e` at a water and a gas saturation are in the range of the two tables. -/
structure StaysWithin (law : ThreePhaseLaw Exact) (waterRows gasRows : List (SaturationRow Exact))
    (water gas : Rat) (e : Evaluation Exact) : Prop where
  gives : law.Gives (.value water) (.value gas) e
  krWater : Exact.Within (waterRows.map fun row => row.2.1) e.kr.water
  krGas : Exact.Within (gasRows.map fun row => row.2.1) e.kr.gas
  oilWater : Exact.Within (waterRows.map fun row => row.2.2.2) e.oilWater
  gasOil : Exact.Within (gasRows.map fun row => row.2.2.2) e.gasOil
  krOil : Exact.Within
    [law.kroWater (.value water) (.value gas), law.kroGas (.value gas)] e.kr.oil
  unit : (∀ row ∈ waterRows, row.2.1.InUnit ∧ row.2.2.1.InUnit) →
    (∀ row ∈ gasRows, row.2.1.InUnit ∧ row.2.2.1.InUnit) → ∀ phase, (e.kr.get phase).InUnit
  divisors_pos : ∀ d ∈ law.divisors (.value water) (.value gas), .value 0 < d

variable {law : ThreePhaseLaw Exact} {waterRows gasRows : List (SaturationRow Exact)}

namespace Tabulates

theorem water_within (h : law.Tabulates waterRows gasRows) {quantity : Sample Exact → Exact}
    (hq : IsQuantity quantity) (x : Rat) :
    Exact.Within (waterRows.map fun row => quantity (waterSample row))
      ((law.oilWater.curve quantity).held (.value x)) := by
  have hwithin := h.oilWater.held_within hq x
  rwa [List.map_map] at hwithin

theorem gas_within (h : law.Tabulates waterRows gasRows) {quantity : Sample Exact → Exact}
    (hq : IsQuantity quantity) (x : Rat) :
    Exact.Within (gasRows.map fun row => quantity (gasSample row))
      ((law.gasOil.curve quantity).held (1.0 - .value x)) := by
  have hwithin := h.gasOil.held_within hq (1 - x)
  rwa [List.map_map, ← Exact.value_sub, ← Exact.one_eq] at hwithin

theorem krOil_within (h : law.Tabulates waterRows gasRows) (water gas : Rat) :
    Exact.Within [law.kroWater (.value water) (.value gas), law.kroGas (.value gas)]
      (law.krOil (.value water) (.value gas)) := by
  obtain ⟨connate, hconnate⟩ := h.exists_connateWater
  obtain ⟨kw, hkw⟩ := h.exists_kroWater water gas
  obtain ⟨kg, hkg⟩ := h.exists_kroGas gas
  rw [krOil, hconnate, hkw, hkg]
  exact oilRelativePermeability_within connate kw kg water gas

theorem divisors_pos (h : law.Tabulates waterRows gasRows) (water gas : Rat) :
    ∀ d ∈ law.divisors (.value water) (.value gas), .value 0 < d := by
  intro d hd
  have hgas : (1.0 : Exact) - .value gas = .value (1 - gas) := by
    rw [Exact.one_eq, Exact.value_sub]
  simp only [divisors, List.mem_filterMap, List.mem_append, List.mem_cons, List.not_mem_nil,
    or_false, id_eq, exists_eq_right, Exact.value_add, hgas] at hd
  obtain hd | hd := hd
  · obtain hd | hd | hd | hd | hd | hd := hd
    · exact h.oilWater.divisor_pos isQuantity_wetting hd.symm
    · exact h.oilWater.divisor_pos isQuantity_nonWetting hd.symm
    · exact h.oilWater.divisor_pos isQuantity_capillary hd.symm
    · exact h.gasOil.divisor_pos isQuantity_wetting hd.symm
    · exact h.gasOil.divisor_pos isQuantity_nonWetting hd.symm
    · exact h.gasOil.divisor_pos isQuantity_capillary hd.symm
  · split at hd
    · rename_i hweight
      cases hd
      refine Exact.lt_trans ?_ hweight
      rw [Exact.ofScientific_eq, Exact.value_lt]
      norm_num
    · cases hd

theorem staysWithin (h : law.Tabulates waterRows gasRows) (water gas : Rat) :
    law.StaysWithin waterRows gasRows water gas (law.evaluate (.value water) (.value gas)) where
  gives := law.gives_evaluate _ _
  krWater := h.water_within isQuantity_wetting water
  krGas := h.gas_within isQuantity_nonWetting gas
  oilWater := h.water_within isQuantity_capillary water
  gasOil := h.gas_within isQuantity_capillary gas
  krOil := h.krOil_within water gas
  unit := by
    intro hwater hgas phase
    have hkrow : (law.kroWater (.value water) (.value gas)).InUnit :=
      (h.water_within isQuantity_nonWetting (water + gas)).bounds
        (List.forall_mem_map.mpr fun row hrow => (hwater row hrow).2)
    have hkrog : (law.kroGas (.value gas)).InUnit :=
      (h.gas_within isQuantity_wetting gas).bounds
        (List.forall_mem_map.mpr fun row hrow => (hgas row hrow).2)
    cases phase with
    | water =>
      exact (h.water_within isQuantity_wetting water).bounds
        (List.forall_mem_map.mpr fun row hrow => (hwater row hrow).1)
    | oil => exact (h.krOil_within water gas).bounds (by simpa using ⟨hkrow, hkrog⟩)
    | gas =>
      exact (h.gas_within isQuantity_nonWetting gas).bounds
        (List.forall_mem_map.mpr fun row hrow => (hgas row hrow).1)
  divisors_pos := h.divisors_pos water gas

end Tabulates

/-- The law of an active cell stays in the range of the tables of its region at all
saturations. -/
theorem exists_staysWithin_of_ofDeck {deck : Deck Exact} {t : Topology}
    {f : SaturationFunctions Exact} (h : SaturationFunctions.ofDeck deck t = .ok f) {active : Int}
    (hactive : 0 ≤ active ∧ active < t.numActive) :
    ∃ region law waterRows gasRows, f.region active = .ok region ∧ f.law active = .ok law ∧
      deck.HoldsRows "SWOF" region waterRows ∧ deck.HoldsRows "SGOF" region gasRows ∧
      ∀ water gas : Rat, ∃ e, law.StaysWithin waterRows gasRows water gas e := by
  obtain ⟨laws, region, law, hlaws, hlaw, hregion, hcell⟩ :=
    SaturationFunctions.exists_law_of_ofDeck h hactive
  obtain ⟨waterRows, gasRows, hwater, hgas, htabulates⟩ := exists_tabulates hlaws hlaw
  exact ⟨region, law, waterRows, gasRows, hregion, hcell, hwater, hgas,
    fun water gas => ⟨_, htabulates.staysWithin water gas⟩⟩

/-- One cell, in the region whose table repeats a saturation. -/
theorem exists_staysWithin_of_ofDeck_repeated : ∃ f law,
    SaturationFunctions.ofDeck twoRegions ⟨1, #[0], .ok []⟩ = .ok f ∧
      f.region 0 = .ok 0 ∧ f.law 0 = .ok law ∧
      ∃ e, law.StaysWithin [(0.2, 0.0, 1.0, 3e4), (0.5, 0.1, 0.6, 2e4), (0.5, 0.3, 0.4, 1e4),
        (1.0, 1.0, 0.0, 0.0)] [(0.0, 0.0, 1.0, 0.0), (0.8, 1.0, 0.0, 1e4)] 0.5 0.25 e := by
  have hbuilt : (SaturationFunctions.ofDeck twoRegions ⟨1, #[0], .ok []⟩).toOption.any
      fun f => (f.region 0).toOption = some 0 := by decide +kernel
  obtain ⟨f, h, hfirst⟩ := (Option.any_eq_true _ _).mp hbuilt
  have h := Outcome.toOption_eq_some_iff.mp h
  have hfirst := Outcome.toOption_eq_some_iff.mp (of_decide_eq_true hfirst)
  have hactive : (0 : Int) ≤ 0 ∧ (0 : Int) < (Topology.mk 1 #[0] (.ok [])).numActive := by decide
  obtain ⟨region, law, waterRows, gasRows, hregion, hlaw, hwater, hgas, hwithin⟩ :=
    exists_staysWithin_of_ofDeck h hactive
  obtain rfl := Except.ok.inj (hfirst.symm.trans hregion)
  obtain rfl := hwater.rows_eq rfl rfl
  obtain rfl := hgas.rows_eq rfl rfl
  exact ⟨f, law, h, hfirst, hlaw, hwithin 0.5 0.25⟩

end ThreePhaseLaw
end BlackOil

import BlackOil.Proofs.Pvt.BubblePoint
import BlackOil.Proofs.Pvt.Water
import BlackOil.Pvt.FluidSystem

/-!
# Physical fluids

A deck that gives a fluid system has rational pressures in increasing order and a positive
volume factor of the water and positive densities. This makes all that the properties divide
by positive, with one exception: the branch of a live oil record is divided by the saturated
volume factor of the record, which may be zero. The fluids are physical exactly if no branch
is spoiled in this way.
-/
namespace BlackOil

namespace DryGas
variable {g : DryGas Exact} {y : GasRow Exact → Exact}

/-- The rows consist of rational numbers, in the order of strictly increasing pressure. -/
structure Strict (g : DryGas Exact) : Prop where
  rational : ∀ r ∈ g.rows, ∃ p b mu : Rat, r = ⟨.value p, .value b, .value mu⟩
  increasing : g.rows.Pairwise fun r s => r.pressure < s.pressure

theorem ofColumns_eq_ok {α : Type} [Scalar α] {pressures volumeFactors viscosities : List α}
    {g : DryGas α} (h : ofColumns pressures volumeFactors viscosities = .ok g) :
    checkIncreasing .gasPressures pressures = .ok () ∧
      g.rows = (pressures.zip (volumeFactors.zip viscosities)).map fun (p, bg, mu) =>
        GasRow.mk p bg mu := by
  simp only [ofColumns, Outcome.check_eq_ok_iff, Outcome.bind_eq_ok_iff] at h
  obtain ⟨-, ⟨⟩, hcheck, -, h⟩ := h
  refine ⟨hcheck, ?_⟩
  split at h
  · rename_i hrows
    cases h
    exact hrows.symm
  · cases h

/-- The rows of a table of dry gas. -/
theorem rows_of_ofTable {α : Type} [Scalar α] {table : Table α} {g : DryGas α}
    (h : ofTable table = .ok g) : ¬table.flatten.any Scalar.isUndefined ∧
      (table.flatten.length % 3 = 0) ∧
      checkIncreasing .gasPressures ((LiveOil.rowsOfThree table.flatten).map Prod.fst) = .ok () ∧
      g.rows = (LiveOil.rowsOfThree table.flatten).map fun (p, bg, mu) => GasRow.mk p bg mu := by
  simp only [ofTable] at h
  split at h
  · cases h
  · split at h
    · cases h
    · rename_i hsize
      split at h
      · cases h
      · rename_i hdefined
        obtain ⟨hcheck, hrows⟩ := ofColumns_eq_ok h
        refine ⟨hdefined, Classical.not_not.mp hsize, hcheck, ?_⟩
        rw [hrows]
        refine List.ext_getElem (by simp) fun i hi hi' => ?_
        simp

theorem strict_of_ofTable {table : Table Exact} (h : ofTable table = .ok g) : g.Strict := by
  obtain ⟨hdefined, hsize, hcheck, hrows⟩ := rows_of_ofTable h
  have hvalue : ∀ row ∈ LiveOil.rowsOfThree table.flatten, row.IsRational := by
    intro row hrow
    apply LiveOil.Row.isRational_of_values
    intro x hx
    apply Exact.exists_value_of_any hdefined
    rw [← LiveOil.flatMap_rowsOfThree hsize]
    exact List.mem_flatMap.mpr ⟨row, hrow, hx⟩
  constructor
  · intro r hr
    rw [hrows] at hr
    obtain ⟨row, hrow, rfl⟩ := List.mem_map.mp hr
    obtain ⟨p, b, mu, rfl⟩ := hvalue row hrow
    exact ⟨p, b, mu, rfl⟩
  · rw [hrows, List.pairwise_map]
    refine List.pairwise_map.mp (LiveOil.pairwise_of_checkIncreasing (fun x hx => ?_) hcheck)
    obtain ⟨row, hrow, rfl⟩ := List.mem_map.mp hx
    obtain ⟨p, b, mu, rfl⟩ := hvalue row hrow
    exact ⟨p, rfl⟩

theorem knots_curve {α : Type} (g : DryGas α) (y : GasRow α → α) :
    (g.curve y).knots = g.rows.map fun r => ⟨r.pressure, y r⟩ := rfl

namespace Strict

theorem curve_volumeFactor (h : g.Strict) : (g.curve GasRow.volumeFactor).Strict where
  rational := by
    intro k hk
    rw [knots_curve] at hk
    obtain ⟨r, hr, rfl⟩ := List.mem_map.mp hk
    obtain ⟨p, b, mu, rfl⟩ := h.rational r hr
    exact ⟨p, b, rfl⟩
  increasing := by
    rw [knots_curve]
    exact List.pairwise_map.mpr h.increasing

theorem exists_volumeFactor (h : g.Strict) (floor pressure : Rat) :
    ∃ b, g.volumeFactor (.value floor) (.value pressure) = .value b ∧ floor ≤ b := by
  obtain ⟨b, hb⟩ := h.curve_volumeFactor.exists_extended_value pressure
  exact ⟨max b floor, by rw [volumeFactor, hb, Exact.maximum_value], le_max_right b floor⟩

end Strict
end DryGas

/-- A curve through undefined ordinates is undefined everywhere. -/
theorem Curve.extended_undefined {c : Curve Exact} (h : ∀ k ∈ c.knots, k.y = .undefined)
    (x : Exact) : c.extended x = .undefined := by
  obtain ⟨first, rest⟩ := c
  cases rest with
  | nil => exact h first List.mem_cons_self
  | cons second rest =>
    have hlower := h _ (bracket_mem Knot.x x).1
    simp only [extended, line]
    rw [hlower, Exact.add_undefined]

namespace LiveOil
variable {t : LiveOil Exact} {r : OilRecord Exact} {table : Table Exact}

/-- All that the volume factor divides by: the steps between neighbouring records and between
the offsets of a branch. -/
def divisors (t : LiveOil Exact) : List Exact :=
  Scalar.steps (t.records.map OilRecord.dissolvedGas) ++
    Scalar.steps (t.records.map OilRecord.bubblePoint) ++
    t.records.flatMap fun r => Scalar.steps (r.branch.knots.map Knot.x)

theorem Strict.divisors_pos (h : t.Strict) : ∀ d ∈ t.divisors, .value 0 < d := by
  intro d hd
  rw [divisors, List.mem_append, List.mem_append, List.mem_flatMap] at hd
  rcases hd with (hd | hd) | ⟨r, hr, hd⟩
  · exact Scalar.steps_pos (List.pairwise_map.mpr h.dissolvedGas) d hd
  · exact Scalar.steps_pos (List.pairwise_map.mpr h.bubblePoint) d hd
  · exact Scalar.steps_pos (List.pairwise_map.mpr (h.branch r hr).increasing) d hd

namespace Tabulates

theorem rises_dissolvedGas (h : t.Tabulates table) : t.Rises OilRecord.dissolvedGas where
  rational r hr := (h.rational r hr).dissolvedGas
  increasing := h.dissolvedGas

theorem rises_bubblePoint (h : t.Tabulates table) : t.Rises OilRecord.bubblePoint where
  rational r hr := (h.rational r hr).bubblePoint
  increasing := h.bubblePoint

/-- A branch divided by zero spoils the branch factor at the dissolved gas of its record. -/
theorem branchFactor_undefined (h : t.Tabulates table) (hr : r ∈ t.records)
    (hbranch : ∀ x, r.branch.extended x = .undefined) (offset : Exact) :
    t.branchFactor r.dissolvedGas offset = .undefined := by
  have hend := eq_or_eq_of_bracket h.dissolvedGas hr
  unfold branchFactor
  generalize bracket OilRecord.dissolvedGas r.dissolvedGas t.first t.second t.rest = ends
    at hend ⊢
  obtain ⟨lower, upper⟩ := ends
  simp only at hend ⊢
  rcases hend with rfl | rfl
  · rw [hbranch, Exact.mul_undefined, Exact.undefined_add]
  · rw [hbranch, Exact.mul_undefined, Exact.add_undefined]

/-- Unless all branches are defined, the volume factor above the bubble point of some record
is not. -/
theorem exists_undefined (h : t.Tabulates table) (hundefined : ¬DefinesBranches table)
    (floor : Exact) : ∃ p rs : Rat,
      t.volumeFactor floor (.value p) (.value rs) = .undefined := by
  simp only [DefinesBranches, not_forall, not_not] at hundefined
  obtain ⟨record, hrecord, row, hrow, hlength, hzero⟩ := hundefined
  obtain ⟨r, hr, rest, hholds⟩ := h.exists_record record hrecord
  rw [hholds.reads.rowsOfThree_eq] at hrow hlength
  cases hrow
  have hne : rest ≠ [] := by
    rintro rfl
    simp at hlength
  obtain ⟨c, hc⟩ : ∃ c, branchOf (saturatedRow r) rest = some c := exists_branchOf_eq_some hne
  have hbranch : ∀ x, r.branch.extended x = .undefined := by
    rw [hholds.branch c hc]
    apply Curve.extended_undefined
    intro k hk
    rw [knots_of_branchOf hc] at hk
    obtain ⟨row, -, rfl⟩ := List.mem_map.mp hk
    rw [hzero, Exact.div_value_zero]
  obtain ⟨rs, hrs⟩ := h.rises_dissolvedGas.rational r hr
  obtain ⟨pb, hpb⟩ := h.rises_bubblePoint.rational r hr
  have hbubble : t.bubblePoint (.value rs) = .value pb := by
    rw [← hrs, ← hpb]
    exact extended_of_record (h.rises_dissolvedGas.strict_curve h.rises_bubblePoint.rational) hr
  have habove := lt_saturatedGas h.rises_dissolvedGas h.rises_bubblePoint hbubble (lt_add_one pb)
  refine ⟨pb + 1, rs, ?_⟩
  rw [volumeFactor, if_pos habove, undersaturatedVolumeFactor, ← hrs,
    h.branchFactor_undefined hr hbranch, Exact.mul_undefined, Exact.maximum_undefined]

end Tabulates
end LiveOil

theorem PerPhase.all?_map_some {β : Type} (v : PerPhase β) : (v.map some).all? = some v := rfl

namespace FluidSystem
variable {f : FluidSystem Exact} {deck : Deck Exact} {constants : Constants Exact}

/-- All that the volume factor and the density of a phase divide by. -/
def divisors (f : FluidSystem Exact) (floor : Exact) (phase : Phase) (pressure : Exact)
    (dissolvedGas : Option Exact) : List Exact :=
  f.volumeFactor floor phase pressure dissolvedGas :: match phase with
    | .oil => f.oil.divisors
    | .water => [Water.expansion (f.water.compressibility * (pressure - f.water.referencePressure))]
    | .gas => Scalar.steps (f.gas.rows.map GasRow.pressure)

/-- Volume factors, densities and the saturated dissolved gas are defined and in their physical
range, and nothing is divided by zero. -/
structure IsPhysical (f : FluidSystem Exact) (floor : Rat) : Prop where
  saturatedGas : ∀ p : Rat, ∃ rs : Rat, f.saturatedGas (.value p) = .value rs ∧ 0 ≤ rs
  volumeFactor : ∀ (phase : Phase) (p : Rat) (gas : Option Rat), ∃ b : Rat,
    f.volumeFactor (.value floor) phase (.value p) (gas.map .value) = .value b ∧ floor ≤ b
  density : ∀ (phase : Phase) (p : Rat) (gas : Option Rat), ∃ s d : Rat,
    f.surfaceDensities.get phase = .value s ∧
    f.density (.value floor) phase (.value p) (gas.map .value) = .value d ∧
    0 < d ∧ d ≤ s / floor
  divisors_pos : ∀ (phase : Phase) (p : Rat) (gas : Option Rat),
    ∀ d ∈ f.divisors (.value floor) phase (.value p) (gas.map .value), .value 0 < d

/-- The parts of the fluid system of a deck, each from the first table of its keyword. -/
structure IsOfDeck (f : FluidSystem Exact) (deck : Deck Exact) : Prop where
  oil : ∃ table, firstTable deck "PVTO" "live oil PVT" = .ok table ∧
    LiveOil.ofTable table = .ok f.oil
  water : ∃ table, firstTable deck "PVTW" "water PVT" = .ok table ∧
    Water.ofTable table = .ok f.water
  gas : ∃ table, firstTable deck "PVDG" "dry gas PVT" = .ok table ∧
    DryGas.ofTable table = .ok f.gas
  surfaceDensities : ∀ density ∈ f.surfaceDensities.toList, .value 0 < density

theorem readDensities_eq_ok {record : Record Exact} {densities : PerPhase Exact}
    (h : readDensities record = .ok densities) :
    ∀ density ∈ densities.toList, density ≠ .undefined := by
  unfold readDensities at h
  split at h
  · rename_i oil water gas _
    split at h
    · cases h
    · rename_i hdefined
      cases h
      intro density hdensity hundefined
      have hmem : density ∈ [oil, water, gas] := by
        simpa [PerPhase.toList, or_left_comm] using hdensity
      obtain ⟨q, hq⟩ := Exact.exists_value_of_any hdefined hmem
      rw [hundefined] at hq
      cases hq
  · cases h

/-- A fluid system has the parts of its deck, and the given molar masses if any is known. -/
theorem isOfDeck_of_ofDeck {masses : PerComponent (Option Exact)}
    (h : ofDeck constants deck masses = .ok f) : f.IsOfDeck deck ∧
      f.molarMasses = if masses.toList.all Option.isNone then constants.molarMasses.map some
        else masses := by
  simp only [ofDeck, Outcome.bind_eq_ok_iff] at h
  obtain ⟨oil, hoil, _, hoil', water, hwater, _, hwater', gas, hgas, _, hgas', table, -, h⟩ := h
  split at h
  · obtain ⟨densities, hdensities, h⟩ := Outcome.bind_eq_ok_iff.mp h
    rw [ofParts, PerPhase.all?_map_some] at h
    simp only at h
    split at h
    · cases h
    · rename_i hpositive
      cases h
      refine ⟨⟨⟨oil, hoil, hoil'⟩, ⟨water, hwater, hwater'⟩, ⟨gas, hgas, hgas'⟩, ?_⟩, rfl⟩
      intro density hdensity
      have hdefined := readDensities_eq_ok hdensities density hdensity
      apply Exact.pos_of_not_nonpos _ hdefined
      intro hle
      exact hpositive (List.any_eq_true.mpr ⟨density, hdensity, decide_eq_true hle⟩)
  · cases h

namespace IsOfDeck

/-- With a strict live oil every volume factor is defined and above the floor. -/
theorem exists_volumeFactor (h : f.IsOfDeck deck) (hstrict : f.oil.Strict) (floor : Rat)
    (phase : Phase) (p : Rat) (gas : Option Rat) : ∃ b : Rat,
      f.volumeFactor (.value floor) phase (.value p) (gas.map .value) = .value b ∧
        floor ≤ b := by
  cases phase with
  | oil =>
    cases gas with
    | none => exact hstrict.exists_saturatedVolumeFactor floor p
    | some rs => exact hstrict.exists_volumeFactor floor p rs
  | water =>
    obtain ⟨table, -, hwater⟩ := h.water
    exact (Water.isPositive_of_ofTable hwater).exists_volumeFactor floor p
  | gas =>
    obtain ⟨table, -, hgas⟩ := h.gas
    exact (DryGas.strict_of_ofTable hgas).exists_volumeFactor floor p

theorem divisors_pos (h : f.IsOfDeck deck) (hstrict : f.oil.Strict) {floor : Rat}
    (hfloor : 0 < floor) (phase : Phase) (p : Rat) (gas : Option Rat) :
    ∀ d ∈ f.divisors (.value floor) phase (.value p) (gas.map .value), .value 0 < d := by
  obtain ⟨b, hb, hle⟩ := h.exists_volumeFactor hstrict floor phase p gas
  unfold divisors
  rw [hb, List.forall_mem_cons, Exact.value_lt]
  refine ⟨hfloor.trans_le hle, ?_⟩
  cases phase with
  | oil => exact hstrict.divisors_pos
  | water =>
    obtain ⟨table, -, hwater⟩ := h.water
    obtain ⟨e, he, hpos⟩ := (Water.isPositive_of_ofTable hwater).exists_expansion p
    rw [he]
    exact List.forall_mem_singleton.mpr ((Exact.value_lt 0 e).mpr hpos)
  | gas =>
    obtain ⟨table, -, hgas⟩ := h.gas
    exact Scalar.steps_pos (List.pairwise_map.mpr (DryGas.strict_of_ofTable hgas).increasing)

theorem isPhysical (h : f.IsOfDeck deck) (hstrict : f.oil.Strict) {floor : Rat}
    (hfloor : 0 < floor) : f.IsPhysical floor where
  saturatedGas := hstrict.exists_saturatedGas
  volumeFactor := h.exists_volumeFactor hstrict floor
  divisors_pos := h.divisors_pos hstrict hfloor
  density phase p gas := by
    obtain ⟨b, hb, hle⟩ := h.exists_volumeFactor hstrict floor phase p gas
    have hdensity : .value 0 < f.surfaceDensities.get phase :=
      h.surfaceDensities _ (by cases phase <;> simp [PerPhase.toList, PerPhase.get])
    obtain ⟨-, s, -, hs, -⟩ := Exact.lt_iff.mp hdensity
    rw [hs, Exact.value_lt] at hdensity
    have hpos : 0 < b := hfloor.trans_le hle
    refine ⟨s, s / b, hs, ?_, div_pos hdensity hpos, ?_⟩
    · rw [FluidSystem.density, hb, hs, Exact.value_div hpos.ne']
    · exact div_le_div_of_nonneg_left hdensity.le hfloor hle

end IsOfDeck

/-- The fluids of a deck are physical exactly if its live oil has no branch that is divided by
zero. -/
theorem isPhysical_iff_of_ofDeck {masses : PerComponent (Option Exact)}
    (h : ofDeck constants deck masses = .ok f) {floor : Rat} (hfloor : 0 < floor) :
    f.IsPhysical floor ↔ ∀ table, firstTable deck "PVTO" "live oil PVT" = .ok table →
      LiveOil.DefinesBranches table := by
  have hparts := (isOfDeck_of_ofDeck h).1
  obtain ⟨oil, hoil, hbuilt⟩ := hparts.oil
  have htabulates := LiveOil.tabulates_of_ofTable hbuilt
  constructor
  · intro hphysical table htable
    cases hoil.symm.trans htable
    by_contra hundefined
    obtain ⟨p, rs, hvalue⟩ := htabulates.exists_undefined hundefined (.value floor)
    obtain ⟨b, hb, -⟩ := hphysical.volumeFactor .oil p (some rs)
    cases hvalue.symm.trans hb
  · intro hdefined
    exact hparts.isPhysical (htabulates.strict_of_branches (hdefined oil hoil)) hfloor

/-- A deck of fluids with the given live oil. -/
def fluidDeck (oil : Table Exact) : Except Fault (Deck Exact) :=
  Deck.ofLists [] [("PVTO", [oil]), ("PVTW", [[[1e5, 1.0, 0.0, 5e-4, 0.0]]]),
    ("PVDG", [[[1e5, 0.01, 1e-5, 2e5, 0.005, 2e-5]]]), ("DENSITY", [[[800.0, 1000.0, 1.0]]])] none

theorem isPhysical_of_ofDeck_two : ∃ deck f, fluidDeck LiveOil.twoRecords = .ok deck ∧
    ofDeck {} deck ⟨none, none, none⟩ = .ok f ∧ f.IsPhysical 1e-12 := by
  have hbuilt : (fluidDeck LiveOil.twoRecords).toOption.any fun deck =>
      (ofDeck {} deck ⟨none, none, none⟩).toOption.isSome &&
      (firstTable deck "PVTO" "live oil PVT").toOption = some LiveOil.twoRecords := by
    decide +kernel
  have hdefined : LiveOil.DefinesBranches LiveOil.twoRecords := by decide +kernel
  obtain ⟨deck, hdeck, hbuilt⟩ := (Option.any_eq_true _ _).mp hbuilt
  obtain ⟨hfluids, htable⟩ := Bool.and_eq_true_iff.mp hbuilt
  obtain ⟨f, h⟩ := Outcome.exists_ok_of_isSome hfluids
  refine ⟨deck, f, Outcome.toOption_eq_some_iff.mp hdeck, h,
    (isPhysical_iff_of_ofDeck h (by norm_num)).mpr ?_⟩
  intro table hfirst
  rw [hfirst, decide_eq_true_iff] at htable
  cases htable
  exact hdefined

/-- A saturated volume factor of zero with a row above the bubble point. -/
def zeroFactorRecords : Table Exact :=
  [[0.0, 1e5, 0.0, 1e-3, 2e5, 1.0, 1e-3], [1.0, 3e5, 1.0, 1e-3]]

/-- Fluids with neither a volume factor nor a density of the oil. -/
theorem not_isPhysical_zeroFactorRecords : ∃ deck f, fluidDeck zeroFactorRecords = .ok deck ∧
    ofDeck {} deck ⟨none, none, none⟩ = .ok f ∧
      f.volumeFactor 1e-12 .oil 2e5 (some 0.0) = .undefined ∧
      f.density 1e-12 .oil 2e5 (some 0.0) = .undefined ∧ ¬f.IsPhysical 1e-12 := by
  have hvalues : (fluidDeck zeroFactorRecords).toOption.any fun deck =>
      (ofDeck {} deck ⟨none, none, none⟩).toOption.any fun f =>
        f.volumeFactor 1e-12 .oil 2e5 (some 0.0) = .undefined &&
        f.density 1e-12 .oil 2e5 (some 0.0) = .undefined := by decide +kernel
  obtain ⟨deck, hdeck, hvalues⟩ := (Option.any_eq_true _ _).mp hvalues
  obtain ⟨f, hf, hvalues⟩ := (Option.any_eq_true _ _).mp hvalues
  rw [Bool.and_eq_true_iff, decide_eq_true_iff, decide_eq_true_iff] at hvalues
  refine ⟨deck, f, Outcome.toOption_eq_some_iff.mp hdeck, Outcome.toOption_eq_some_iff.mp hf,
    hvalues.1, hvalues.2, ?_⟩
  intro hphysical
  obtain ⟨b, hb, -⟩ := hphysical.volumeFactor .oil 2e5 (some 0)
  have hzero : (0.0 : Exact) = .value 0 := Exact.zero_eq
  rw [hzero] at hvalues
  cases hvalues.1.symm.trans hb

end FluidSystem
end BlackOil

import BlackOil.Proofs.Model.Consistency
import BlackOil.Proofs.Model.Masking

/-!
# Molar masses of any sign

A fluid system takes the molar masses that it is given, whatever their signs. In oil with the
mass fraction `X` of gas the two components have the amounts `X * Mo` and `(1 - X) * Mg`, up to
a common factor, and the mole fraction is the share of the first in their sum. It lies between
zero and one exactly if the amounts have one sign and do not cancel. So the initial states of a
deck may have mole fractions that no mixture has, and whether they do is decided cell by cell.
-/
namespace BlackOil

/-- Two amounts of which each is a share of their sum. -/
structure SameSign (a b : Rat) : Prop where
  sum_ne_zero : a + b ≠ 0
  product_nonneg : 0 ≤ a * b

namespace SameSign
variable {a b : Rat}

theorem div_add_mem_unit_iff (hsum : a + b ≠ 0) :
    0 ≤ a / (a + b) ∧ a / (a + b) ≤ 1 ↔ 0 ≤ a * (a + b) ∧ 0 ≤ b * (a + b) := by
  have hsquare : 0 < (a + b) * (a + b) := mul_self_pos.mpr hsum
  have hfirst : a / (a + b) = a * (a + b) / ((a + b) * (a + b)) :=
    (mul_div_mul_right a (a + b) hsum).symm
  have hsecond : 1 - a / (a + b) = b * (a + b) / ((a + b) * (a + b)) := by
    rw [mul_div_mul_right b (a + b) hsum, one_sub_div hsum, add_sub_cancel_left]
  rw [← sub_nonneg (b := a / (a + b)), hsecond, hfirst, le_div_iff₀ hsquare,
    le_div_iff₀ hsquare, zero_mul]

/-- A part of a sum is a share exactly if both parts have one sign. -/
theorem iff_div_mem_unit : SameSign a b ↔ a + b ≠ 0 ∧ 0 ≤ a / (a + b) ∧ a / (a + b) ≤ 1 := by
  constructor
  · intro h
    refine ⟨h.sum_ne_zero, (div_add_mem_unit_iff h.sum_ne_zero).mpr ⟨?_, ?_⟩⟩
    · linarith [h.product_nonneg, mul_self_nonneg a, mul_add a a b]
    · linarith [h.product_nonneg, mul_self_nonneg b, mul_add b a b, mul_comm a b]
  · intro h
    obtain ⟨hsum, hunit⟩ := h
    obtain ⟨hfirst, hsecond⟩ := (div_add_mem_unit_iff hsum).mp hunit
    refine ⟨hsum, ?_⟩
    have hproduct := mul_nonneg hfirst hsecond
    have hsquare : 0 < (a + b) * (a + b) := mul_self_pos.mpr hsum
    rw [mul_mul_mul_comm] at hproduct
    exact nonneg_of_mul_nonneg_left hproduct hsquare

end SameSign

namespace OilGas
variable {m : OilGas Exact} {oil gas X : Rat}

/-- The mole fraction is a share exactly if the amounts of oil and gas have one sign. -/
theorem inUnit_moleFraction_iff (hoil : m.oilMass = .value oil) (hgas : m.gasMass = .value gas) :
    (m.moleFraction (.value X)).InUnit ↔ SameSign (X * oil) ((1 - X) * gas) := by
  rw [moleFraction, denominator_value hoil hgas, hoil, Exact.value_mul,
    SameSign.iff_div_mem_unit]
  by_cases hsum : X * oil + (1 - X) * gas = 0
  · rw [hsum, Exact.value_div_zero]
    simp [Exact.InUnit, Exact.le_iff]
  · rw [Exact.value_div hsum, Exact.inUnit_value_iff]
    exact ⟨fun h => ⟨hsum, h⟩, fun h => h.2⟩

end OilGas

namespace CellData
variable {d : CellData Exact} {m : OilGas Exact} {f : FluidSystem Exact}

/-- The mole fractions of the state of a cell are shares, and finding them divides by nothing
that is zero. -/
structure Mixes (d : CellData Exact) (m : OilGas Exact) (f : FluidSystem Exact) (floor : Exact)
    (cap : Bool) (state : FluidState Exact) : Prop where
  inUnit : ∀ phase component, ((state.moleFractions.get phase).get component).InUnit
  divisors_ne_zero : ∀ divisor ∈ f.oil.divisors ++ d.divisors m f floor cap, divisor ≠ .value 0

/-- The initial oil of a cell is a mixture exactly if the amounts of its components have one
sign. -/
theorem exists_mixes_iff {oil gas : Rat} (hoilDensity : .value 0 < m.oilDensity)
    (hgasDensity : .value 0 < m.gasDensity) (hoil : m.oilMass = .value oil)
    (hgas : m.gasMass = .value gas) (hf : f.oil.Strict) (hd : d.IsRational) {floor : Exact}
    (hfloor : .value 0 < floor) (cap : Bool) (temperature : Exact) :
    ∃ X : Rat, d.massFraction m f floor cap = .value X ∧
      (d.Mixes m f floor cap (d.state temperature (m.moleFraction (.value X))) ↔
        SameSign (X * oil) ((1 - X) * gas)) := by
  obtain ⟨-, oilDensity, -, hoilDensity', hpositive⟩ := Exact.lt_iff.mp hoilDensity
  obtain ⟨-, gasDensity, -, hgasDensity', -⟩ := Exact.lt_iff.mp hgasDensity
  obtain ⟨-, floor, -, rfl, -⟩ := Exact.lt_iff.mp hfloor
  rw [hoilDensity', Exact.value_lt] at hoilDensity
  obtain ⟨rs, bo, hrs, hbo, hle⟩ := exists_initialGas_volumeFactor hf hd floor cap
  have hfactor : 0 < bo := ((Exact.value_lt 0 floor).mp hfloor).trans_le hle
  have hdensity : 0 < oilDensity / bo := div_pos hoilDensity hfactor
  have hX : m.massFraction (.value rs) (.value bo) =
      .value (rs * gasDensity / (oilDensity / bo)) :=
    OilGas.massFraction_value hoilDensity' hgasDensity' hoilDensity hfactor
  refine ⟨rs * gasDensity / (oilDensity / bo), ?_, ?_⟩
  · rw [massFraction, hrs, hbo, hX]
  · generalize rs * gasDensity / (oilDensity / bo) = X at hX ⊢
    constructor
    · intro h
      exact (OilGas.inUnit_moleFraction_iff hoil hgas).mp (inUnit_state_iff.mp h.inUnit)
    · intro h
      refine ⟨inUnit_state_iff.mpr ((OilGas.inUnit_moleFraction_iff hoil hgas).mpr h), ?_⟩
      rw [List.forall_mem_append]
      refine ⟨fun divisor hdivisor => (Exact.ne_of_lt (hf.divisors_pos divisor hdivisor)).symm, ?_⟩
      rw [divisors, hrs, hbo, OilGas.divisors, hX, OilGas.denominator_value hoil hgas,
        hoilDensity', Exact.value_div hfactor.ne']
      simp [hfactor.ne', hdensity.ne', h.sum_ne_zero]

end CellData

variable {deck : Deck Exact} {constants : Constants Exact} {t : Topology}
  {f : FluidSystem Exact} {config : Config Exact} {s : InitialStates Exact}

/-- The initial states of a deck are mixtures exactly in those active cells in which the amounts
of oil and gas have one sign under the given molar masses. -/
theorem exists_state_mixes_iff (hdeck : deck.IsRational) {masses : PerComponent Rat}
    (hfluids : FluidSystem.ofDeck constants deck
      (masses.map fun mass => some (.value mass)) = .ok f)
    (hbranches : ∀ table, FluidSystem.firstTable deck "PVTO" "live oil PVT" = .ok table →
      LiveOil.DefinesBranches table)
    {floor : Exact} (hfloor : 0.0 < floor)
    (hstates : initialStates .double floor deck t f config = .ok s) {active : Int}
    (hactive : 0 ≤ active ∧ active < t.numActive) :
    ∃ (cell : Nat) (d : CellData Exact) (m : OilGas Exact) (state : FluidState Exact) (X : Rat),
      t.cartesianIndex active = .ok cell ∧ deck.cellData? cell = some d ∧ f.oilGas = .ok m ∧
      s.state active = .ok state ∧
      d.massFraction m f floor config.capDissolvedGas = .value X ∧ 0 ≤ X ∧ X ≤ 1 ∧
      (d.Mixes m f floor config.capDissolvedGas state ↔
        SameSign (X * masses.oil) ((1 - X) * masses.gas)) := by
  have hgiven : (masses.map Exact.value).map some = masses.map fun mass => some (.value mass) := rfl
  rw [← hgiven] at hfluids
  obtain ⟨⟨table, htable, hoil⟩, hdensities, hmasses⟩ := FluidSystem.ofDeck_eq_ok hfluids
  have hstrict := (LiveOil.tabulates_of_ofTable hoil).strict_of_branches (hbranches table htable)
  have hcomposition : f.oilGas = .ok ⟨f.surfaceDensities.oil, f.surfaceDensities.gas,
      .value masses.oil, .value masses.gas⟩ := FluidSystem.oilGas_eq_ok hmasses
  obtain ⟨cell, d, hcell, hd, -, hpossible, hstate⟩ :=
    exists_state_of_initialStates hcomposition hstates hactive
  rw [Exact.zero_eq] at hfloor
  have hoilDensity : .value 0 < f.surfaceDensities.oil :=
    hdensities _ (by simp [PerPhase.toList])
  have hgasDensity : .value 0 < f.surfaceDensities.gas :=
    hdensities _ (by simp [PerPhase.toList])
  obtain ⟨X, hX, hmixes⟩ := CellData.exists_mixes_iff (m := ⟨_, _, _, .value masses.gas⟩)
    hoilDensity hgasDensity rfl rfl hstrict (hdeck.of_cellData? hd) hfloor config.capDissolvedGas
    config.temperature
  rw [hX] at hpossible hstate
  obtain ⟨hnonneg, hle⟩ := OilGas.possible_value_iff.mp hpossible
  exact ⟨cell, d, _, _, X, hcell, hd, hcomposition, hstate, hX, hnonneg, hle, hmixes⟩

open ReservoirModel (rowDeck rowConfig)

/-- Molar masses of which that of gas is negative. -/
def negativeGasMass : PerComponent Rat := ⟨18e-3, 175e-3, -24e-3⟩

/-- A row of two cells of which one is masked, with the fraction of gas in the oil of the other
under these masses. -/
theorem exists_initialStates_row : ∃ (g : CartesianGrid) (f : FluidSystem Exact)
    (s : InitialStates Exact) (state : FluidState Exact), CartesianGrid.ofDeck rowDeck = .ok g ∧
    FluidSystem.ofDeck {} rowDeck (negativeGasMass.map fun mass => some (.value mass)) = .ok f ∧
    initialStates .double (Constants.floor {}) rowDeck g.topology f rowConfig = .ok s ∧
    g.topology.numActive = 1 ∧ s.state 0 = .ok state ∧
    state.moleFractions.oil.gas = .value (-175 / 121) := by
  have hstates : (CartesianGrid.ofDeck rowDeck >>= fun g =>
      FluidSystem.ofDeck {} rowDeck (negativeGasMass.map fun mass => some (.value mass)) >>=
        fun f => initialStates .double (Constants.floor {}) rowDeck g.topology f rowConfig >>=
          fun s => s.state 0 >>= fun state =>
            .ok (g.topology.numActive, state.moleFractions.oil.gas)).toOption =
              some (1, .value (-175 / 121)) := by decide +kernel
  have hstates := Outcome.toOption_eq_some_iff.mp hstates
  obtain ⟨g, hg, hstates⟩ := Outcome.bind_eq_ok_iff.mp hstates
  obtain ⟨f, hf, hstates⟩ := Outcome.bind_eq_ok_iff.mp hstates
  obtain ⟨s, hs, hstates⟩ := Outcome.bind_eq_ok_iff.mp hstates
  obtain ⟨state, hstate, hvalues⟩ := Outcome.bind_eq_ok_iff.mp hstates
  obtain ⟨hcount, hfraction⟩ := Prod.mk.inj (Except.ok.inj hvalues)
  exact ⟨g, f, s, state, hg, hf, hs, hcount, hstate, hfraction⟩

/-- The unmasked cell of a row of two, where the mass of gas is negative. -/
theorem exists_state_mixes_iff_row : ∃ (g : CartesianGrid) (f : FluidSystem Exact)
    (s : InitialStates Exact) (d : CellData Exact) (m : OilGas Exact) (state : FluidState Exact)
    (X : Rat),
    FluidSystem.ofDeck {} rowDeck (negativeGasMass.map fun mass => some (.value mass)) = .ok f ∧
    initialStates .double (Constants.floor {}) rowDeck g.topology f rowConfig = .ok s ∧
    s.state 0 = .ok state ∧
    (d.Mixes m f (Constants.floor {}) rowConfig.capDissolvedGas state ↔
      SameSign (X * negativeGasMass.oil) ((1 - X) * negativeGasMass.gas)) := by
  obtain ⟨g, f, s, -, -, hf, hs, hcount, -⟩ := exists_initialStates_row
  have hdeck : rowDeck.IsRational := by decide +kernel
  have hbranches : ∀ table ∈ (FluidSystem.firstTable rowDeck "PVTO" "live oil PVT").toOption,
      LiveOil.DefinesBranches table := by decide +kernel
  have hfloor : (0.0 : Exact) < Constants.floor {} := by decide +kernel
  have hactive : (0 : Int) ≤ 0 ∧ (0 : Int) < g.topology.numActive := by
    rw [hcount]
    decide
  obtain ⟨-, d, m, state, X, -, -, -, hstate, -, -, -, hmixes⟩ := exists_state_mixes_iff hdeck hf
    (fun table htable => hbranches table (Outcome.toOption_eq_some_iff.mpr htable)) hfloor hs
    hactive
  exact ⟨g, f, s, d, m, state, X, hf, hs, hstate, hmixes⟩

/-- Fluid systems are built from which initial states get mole fractions that are not shares. -/
theorem not_forall_inUnit_moleFraction : ¬∀ (deck : Deck Exact) (masses : PerComponent Rat)
    (g : CartesianGrid) (f : FluidSystem Exact) (config : Config Exact) (s : InitialStates Exact)
    (active : Int) (state : FluidState Exact), deck.IsRational →
      FluidSystem.ofDeck {} deck (masses.map fun mass => some (.value mass)) = .ok f →
      initialStates .double (Constants.floor {}) deck g.topology f config = .ok s →
      s.state active = .ok state →
      ∀ phase component, ((state.moleFractions.get phase).get component).InUnit := by
  intro h
  obtain ⟨g, f, s, state, -, hf, hs, -, hstate, hfraction⟩ := exists_initialStates_row
  have hdeck : rowDeck.IsRational := by decide +kernel
  have hunit : state.moleFractions.oil.gas.InUnit :=
    h rowDeck negativeGasMass g f rowConfig s 0 state hdeck hf hs hstate .oil .gas
  rw [hfraction, Exact.inUnit_value_iff] at hunit
  norm_num at hunit

end BlackOil

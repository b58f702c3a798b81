import BlackOil.Proofs.Permeability.Exact
import BlackOil.Proofs.Pvt.LiveOil
import BlackOil.Proofs.State.Initial
import Mathlib.Tactic.Ring

/-!
# Composition of the initial oil

Over the rational numbers the mole fraction of gas in oil lies between zero and one, and
everything that it divides by is positive, provided that densities, molar masses and the
volume factor are and that the mass fraction is possible. Live oil gives the initial oil of
a cell such a volume factor, whether or not the deck limits the dissolved gas. The state of
a cell is consistent then.
-/
namespace BlackOil

namespace OilGas

/-- What the mole fraction of gas in oil divides by: the volume factor, the density of the
oil, and the molar mass of oil and gas in proportion to their masses. -/
def divisors {α : Type} [Scalar α] (m : OilGas α) (dissolvedGas volumeFactor : α) : List α :=
  [volumeFactor, m.oilDensity / volumeFactor,
    (m.oilMass - m.gasMass) * m.massFraction dissolvedGas volumeFactor + m.gasMass]

structure IsPositive (m : OilGas Exact) : Prop where
  oilDensity : .value 0 < m.oilDensity
  gasDensity : .value 0 < m.gasDensity
  oilMass : .value 0 < m.oilMass
  gasMass : .value 0 < m.gasMass

theorem possible_value_iff {X : Rat} : possible (Exact.value X) ↔ 0 ≤ X ∧ X ≤ 1 := by
  simp only [possible, Exact.zero_eq, Exact.one_eq, Exact.value_lt, Bool.not_eq_true',
    Bool.or_eq_false_iff, decide_eq_false_iff_not, not_lt]

/-- The denominator of the mole fraction is the sum of the amounts of oil and gas, even where
its first coefficient is negative. -/
theorem denominator_value {m : OilGas Exact} {oilMass gasMass X : Rat}
    (hoil : m.oilMass = .value oilMass) (hgas : m.gasMass = .value gasMass) :
    (m.oilMass - m.gasMass) * .value X + m.gasMass =
      .value (X * oilMass + (1 - X) * gasMass) := by
  rw [hoil, hgas, Exact.value_sub, Exact.value_mul, Exact.value_add]
  congr 1
  ring

theorem denominator_pos {oil gas X : Rat} (hoil : 0 < oil) (hgas : 0 < gas)
    (hX : 0 ≤ X ∧ X ≤ 1) : 0 < X * oil + (1 - X) * gas := by
  obtain h | h := hX.1.eq_or_lt
  · simpa [← h] using hgas
  · exact add_pos_of_pos_of_nonneg (mul_pos h hoil) (mul_nonneg (sub_nonneg.mpr hX.2) hgas.le)

/-- The mass fraction of gas in oil of positive density. -/
theorem massFraction_value {m : OilGas Exact} {oilDensity gasDensity gas factor : Rat}
    (hoil : m.oilDensity = .value oilDensity) (hgas : m.gasDensity = .value gasDensity)
    (hdensity : 0 < oilDensity) (hfactor : 0 < factor) :
    m.massFraction (.value gas) (.value factor) =
      .value (gas * gasDensity / (oilDensity / factor)) := by
  rw [massFraction, hoil, hgas, Exact.value_mul, Exact.value_div hfactor.ne',
    Exact.value_div (div_pos hdensity hfactor).ne']

theorem moleFraction_value {m : OilGas Exact} {oilMass gasMass X : Rat}
    (hoil : m.oilMass = .value oilMass) (hgas : m.gasMass = .value gasMass)
    (hpos : 0 < X * oilMass + (1 - X) * gasMass) :
    m.moleFraction (.value X) = .value (X * oilMass / (X * oilMass + (1 - X) * gasMass)) := by
  rw [moleFraction, denominator_value hoil hgas, hoil, Exact.value_mul, Exact.value_div hpos.ne']

/-- Oil that holds a possible share of gas has a mole fraction of gas. -/
theorem IsPositive.exists_moleFraction {m : OilGas Exact} (h : m.IsPositive) {gas factor : Rat}
    (hfactor : 0 < factor) (hX : possible (m.massFraction (.value gas) (.value factor))) :
    (∃ x, m.moleFraction (m.massFraction (.value gas) (.value factor)) = .value x ∧
      0 ≤ x ∧ x ≤ 1) ∧ ∀ d ∈ m.divisors (.value gas) (.value factor), .value 0 < d := by
  obtain ⟨oilDensity, hoilDensity, hdensity⟩ := Exact.exists_value_of_pos h.oilDensity
  obtain ⟨gasDensity, hgasDensity, -⟩ := Exact.exists_value_of_pos h.gasDensity
  obtain ⟨oilMass, hoil, hoilMass⟩ := Exact.exists_value_of_pos h.oilMass
  obtain ⟨gasMass, hgas, hgasMass⟩ := Exact.exists_value_of_pos h.gasMass
  have hmass : m.massFraction (.value gas) (.value factor) =
      .value (gas * gasDensity / (oilDensity / factor)) :=
    massFraction_value hoilDensity hgasDensity hdensity hfactor
  rw [hmass] at hX ⊢
  have hshare := possible_value_iff.mp hX
  generalize gas * gasDensity / (oilDensity / factor) = X at hmass hshare
  have hpos := denominator_pos hoilMass hgasMass hshare
  constructor
  · refine ⟨_, moleFraction_value hoil hgas hpos, ?_, ?_⟩
    · exact div_nonneg (mul_nonneg hshare.1 hoilMass.le) hpos.le
    · rw [div_le_one hpos]
      exact le_add_of_nonneg_right (mul_nonneg (sub_nonneg.mpr hshare.2) hgasMass.le)
  · simp only [divisors, hmass, denominator_value hoil hgas, hoilDensity, List.forall_mem_cons,
      List.not_mem_nil, false_imp_iff, implies_true, and_true, Exact.value_div hfactor.ne',
      Exact.value_lt]
    exact ⟨hfactor, div_pos hdensity hfactor, hpos⟩

end OilGas

/-- The data of a cell are rational numbers. -/
def CellData.IsRational (d : CellData Exact) : Prop :=
  ∃ water gas pressure rs : Rat, d = ⟨.value water, .value gas, .value pressure, .value rs⟩

theorem Deck.IsRational.of_cellData? {deck : Deck Exact} {cell : Nat} {d : CellData Exact}
    (h : deck.IsRational) (hd : deck.cellData? cell = some d) : d.IsRational := by
  simp only [cellData?, bind, Option.bind_eq_some_iff, pure, Option.some.injEq] at hd
  obtain ⟨w, hw, g, hg, p, hp, rs, hrs, rfl⟩ := hd
  obtain ⟨w, rfl⟩ := h.of_value? hw
  obtain ⟨g, rfl⟩ := h.of_value? hg
  obtain ⟨p, rfl⟩ := h.of_value? hp
  obtain ⟨rs, rfl⟩ := h.of_value? hrs
  exact ⟨w, g, p, rs, rfl⟩

/-- A state that a cell can have: the saturations are shares of the whole up to a tolerance,
every phase has the same pressure, and each phase is composed of its components. -/
structure FluidState.Consistent (tolerance : Exact) (s : FluidState Exact) : Prop where
  saturations_sum : s.saturations.water + s.saturations.oil + s.saturations.gas = 1.0
  saturations_range : ∀ phase,
    -tolerance ≤ s.saturations.get phase ∧ s.saturations.get phase ≤ 1.0 + tolerance
  pressures : ∃ p : Rat, ∀ phase, s.pressures.get phase = .value p
  moleFractions_unit : ∀ phase component, ((s.moleFractions.get phase).get component).InUnit
  moleFractions_sum : ∀ phase, (s.moleFractions.get phase).water +
    (s.moleFractions.get phase).oil + (s.moleFractions.get phase).gas = 1.0
  water_pure : s.moleFractions.water = ⟨1.0, 0.0, 0.0⟩
  gas_pure : s.moleFractions.gas = ⟨0.0, 0.0, 1.0⟩

namespace CellData
variable {d : CellData Exact}

/-- All mole fractions of a cell are shares if that of the gas in its oil is one. -/
theorem inUnit_state_iff {temperature x : Exact} : (∀ phase component,
    (((d.state temperature x).moleFractions.get phase).get component).InUnit) ↔ x.InUnit := by
  have hzero : (0.0 : Exact).InUnit := by
    rw [Exact.zero_eq, Exact.inUnit_value_iff]
    exact ⟨le_rfl, zero_le_one⟩
  have hone : (1.0 : Exact).InUnit := by
    rw [Exact.one_eq, Exact.inUnit_value_iff]
    exact ⟨zero_le_one, le_rfl⟩
  constructor
  · intro h
    exact h .oil .gas
  · intro hx phase component
    obtain ⟨-, q, -, rfl, -⟩ := Exact.le_iff.mp hx.1
    obtain ⟨hnonneg, hle⟩ := Exact.inUnit_value_iff.mp hx
    have hrest : (1.0 - Exact.value q).InUnit := by
      rw [Exact.one_eq, Exact.value_sub, Exact.inUnit_value_iff]
      exact ⟨sub_nonneg.mpr hle, sub_le_self 1 hnonneg⟩
    cases phase with
    | water => cases component with
      | water => exact hone
      | oil => exact hzero
      | gas => exact hzero
    | oil => cases component with
      | water => exact hzero
      | oil => exact hrest
      | gas => exact hx
    | gas => cases component with
      | water => exact hzero
      | oil => exact hzero
      | gas => exact hone

/-- The cell has consistent saturations that sum to one exactly, being completed by the oil. -/
theorem consistent_state {tolerance x : Rat} (hd : d.IsRational)
    (h : ¬d.inconsistent (.value tolerance)) (hx : 0 ≤ x ∧ x ≤ 1) (temperature : Exact) :
    (d.state temperature (.value x)).Consistent (.value tolerance) := by
  obtain ⟨water, gas, pressure, rs, rfl⟩ := hd
  simp only [inconsistent, oil, Exact.one_eq, Exact.value_sub, Exact.value_add, Exact.neg_value,
    List.any_cons, List.any_nil, Exact.value_lt, Bool.or_eq_true, decide_eq_true_iff, not_or,
    not_lt] at h
  obtain ⟨hoil, hwater, hgas, -⟩ := h
  constructor
  case saturations_sum =>
    simp only [state, oil, Exact.one_eq, Exact.value_sub, Exact.value_add]
    congr 1
    ring
  case saturations_range =>
    intro phase
    simp only [state, oil, Exact.one_eq, Exact.value_sub, Exact.value_add, Exact.neg_value]
    cases phase with
    | water => exact hwater
    | oil => exact hoil
    | gas => exact hgas
  case pressures =>
    refine ⟨pressure, fun phase => ?_⟩
    cases phase <;> rfl
  case moleFractions_unit => exact inUnit_state_iff.mpr (Exact.inUnit_value_iff.mpr hx)
  case moleFractions_sum =>
    intro phase
    cases phase with
    | water => exact show (1.0 : Exact) + 0.0 + 0.0 = 1.0 by decide +kernel
    | oil =>
      simp only [state, PerPhase.get, Exact.zero_eq, Exact.one_eq, Exact.value_sub,
        Exact.value_add]
      congr 1
      ring
    | gas => exact show (0.0 : Exact) + 0.0 + 1.0 = 1.0 by decide +kernel
  case water_pure => rfl
  case gas_pure => rfl

/-- Live oil gives the initial oil of a cell its dissolved gas and a volume factor that is
not below the floor. -/
theorem exists_initialGas_volumeFactor {f : FluidSystem Exact} (hf : f.oil.Strict)
    (hd : d.IsRational) (floor : Rat) (cap : Bool) :
    ∃ rs bo : Rat, d.initialGas f cap = .value rs ∧
      d.initialVolumeFactor f (.value floor) cap = .value bo ∧ floor ≤ bo := by
  obtain ⟨water, gas, pressure, ratio, rfl⟩ := hd
  obtain ⟨saturated, hsaturated, -⟩ := hf.exists_saturatedGas pressure
  cases cap with
  | false =>
    obtain ⟨bo, hbo, hle⟩ := hf.exists_saturatedVolumeFactor floor pressure
    exact ⟨saturated, bo, hsaturated, hbo, hle⟩
  | true =>
    have hgas : initialGas f true
        ⟨.value water, .value gas, .value pressure, .value ratio⟩ =
          .value (min ratio saturated) := by
      simp only [initialGas, FluidSystem.saturatedGas, hsaturated, Exact.minimum_value, if_pos]
    obtain ⟨bo, hbo, hle⟩ := hf.exists_volumeFactor floor pressure (min ratio saturated)
    refine ⟨min ratio saturated, bo, hgas, ?_, hle⟩
    rw [initialVolumeFactor, hgas]
    exact hbo

/-- What the composition of the initial oil of a cell divides by. -/
def divisors (m : OilGas Exact) (f : FluidSystem Exact) (floor : Exact) (cap : Bool)
    (d : CellData Exact) : List Exact :=
  m.divisors (d.initialGas f cap) (d.initialVolumeFactor f floor cap)

/-- The initial oil of a cell has a mole fraction of gas if the share of gas is possible. -/
theorem exists_moleFraction {m : OilGas Exact} {f : FluidSystem Exact} (hm : m.IsPositive)
    (hf : f.oil.Strict) (hd : d.IsRational) {floor : Exact} (hfloor : .value 0 < floor)
    {cap : Bool} (hX : OilGas.possible (d.massFraction m f floor cap)) :
    (∃ x, m.moleFraction (d.massFraction m f floor cap) = .value x ∧ 0 ≤ x ∧ x ≤ 1) ∧
      ∀ divisor ∈ d.divisors m f floor cap, .value 0 < divisor := by
  obtain ⟨-, floor, -, rfl, -⟩ := Exact.lt_iff.mp hfloor
  obtain ⟨rs, bo, hrs, hbo, hle⟩ := exists_initialGas_volumeFactor hf hd floor cap
  unfold massFraction at hX ⊢
  unfold divisors
  rw [hrs, hbo] at hX ⊢
  exact hm.exists_moleFraction (((Exact.value_lt 0 floor).mp hfloor).trans_le hle) hX

end CellData

end BlackOil

import BlackOil.Proofs.State.Composition
import Mathlib.Tactic.LinearCombination

/-!
# Conversion of dissolved gas

Batches of dissolved gas are converted from shares of the mass to shares of the amount. Of one
mass of oil with the share `X` of gas, the gas has the amount `X * Mo` and the rest `(1 - X) * Mg`,
up to a common factor. The mole fraction keeps the ratio of the two, so it is zero, or one, just
where the share of the mass is, and it rises with the dissolved gas. The batches are converted
as a whole: a single share that is not possible refuses all of them.
-/
namespace BlackOil

section Amounts
variable {gas oil gas' oil' x : Rat}

/-- The share of one amount in the sum of two is to the rest as the amounts are. -/
theorem share_iff (hsum : gas + oil ≠ 0) : x * oil = (1 - x) * gas ↔ x = gas / (gas + oil) := by
  rw [eq_div_iff hsum]
  constructor <;> intro h <;> linear_combination h

theorem share_eq_zero_iff (hsum : gas + oil ≠ 0) : gas / (gas + oil) = 0 ↔ gas = 0 := by
  rw [div_eq_zero_iff, or_iff_left hsum]

theorem share_eq_one_iff (hsum : gas + oil ≠ 0) : gas / (gas + oil) = 1 ↔ oil = 0 := by
  rw [div_eq_one_iff_eq hsum, left_eq_add]

theorem share_lt_share (hsum : 0 < gas + oil) (hsum' : 0 < gas' + oil')
    (h : gas * oil' < gas' * oil) : gas / (gas + oil) < gas' / (gas' + oil') := by
  rw [div_lt_div_iff₀ hsum hsum']
  linarith

end Amounts

namespace OilGas
variable {m : OilGas Exact} {r r' b b' x x' : Exact}

/-- The mass of the gas that a volume of oil holds over the mass of the oil with its gas. -/
def massShare (m : OilGas Exact) (dissolvedGas volumeFactor : Exact) : Exact :=
  dissolvedGas * m.gasDensity * volumeFactor / m.oilDensity

/-- The share `x` of the amount goes with the share of the mass of the dissolved gas. -/
structure Converts (m : OilGas Exact) (dissolvedGas volumeFactor x : Exact) : Prop where
  denominator_pos : .value 0 <
    (m.oilMass - m.gasMass) * m.massShare dissolvedGas volumeFactor + m.gasMass
  inUnit : x.InUnit
  conserved : x * (1.0 - m.massShare dissolvedGas volumeFactor) * m.gasMass =
    (1.0 - x) * m.massShare dissolvedGas volumeFactor * m.oilMass
  eq_zero_iff : x = 0.0 ↔ dissolvedGas = 0.0
  eq_one_iff : x = 1.0 ↔ m.massShare dissolvedGas volumeFactor = 1.0

/-- The share of the mass is proportional to the dissolved gas. -/
theorem IsPositive.exists_massShare (h : m.IsPositive) {b : Rat} (hb : 0 < b) :
    ∃ c : Rat, 0 < c ∧ ∀ r : Rat, m.massShare (.value r) (.value b) = .value (r * c) ∧
      m.massFraction (.value r) (.value b) = .value (r * c) := by
  obtain ⟨oilDensity, hoilDensity, hoil⟩ := Exact.exists_value_of_pos h.oilDensity
  obtain ⟨gasDensity, hgasDensity, hgas⟩ := Exact.exists_value_of_pos h.gasDensity
  refine ⟨gasDensity * b / oilDensity, div_pos (mul_pos hgas hb) hoil, fun r => ⟨?_, ?_⟩⟩
  · rw [massShare, hgasDensity, hoilDensity, Exact.value_mul, Exact.value_mul,
      Exact.value_div hoil.ne', mul_assoc, mul_div_assoc]
  · rw [massFraction_value hoilDensity hgasDensity hoil hb, div_div_eq_mul_div, mul_assoc,
      mul_div_assoc]

theorem IsPositive.possible_iff (h : m.IsPositive) (hr : r ≠ .undefined) (hb : .value 0 < b) :
    possible (m.massFraction r b) ↔ (m.massShare r b).InUnit := by
  obtain ⟨r, rfl⟩ := Exact.exists_value_of_ne hr
  obtain ⟨b, rfl, hb⟩ := Exact.exists_value_of_pos hb
  obtain ⟨c, -, hc⟩ := h.exists_massShare hb
  obtain ⟨hshare, hfraction⟩ := hc r
  rw [hshare, hfraction, possible_value_iff, Exact.inUnit_value_iff]

theorem IsPositive.converts (h : m.IsPositive) (hr : r ≠ .undefined) (hb : .value 0 < b)
    (hX : (m.massShare r b).InUnit) :
    m.Converts r b (m.moleFraction (m.massFraction r b)) := by
  have hpossible := (h.possible_iff hr hb).mpr hX
  obtain ⟨r, rfl⟩ := Exact.exists_value_of_ne hr
  obtain ⟨b, rfl, hb⟩ := Exact.exists_value_of_pos hb
  obtain ⟨oil, hoil, hoilPos⟩ := Exact.exists_value_of_pos h.oilMass
  obtain ⟨gas, hgas, hgasPos⟩ := Exact.exists_value_of_pos h.gasMass
  obtain ⟨c, hc, hproportional⟩ := h.exists_massShare hb
  obtain ⟨hshare, hfraction⟩ := hproportional r
  rw [hshare, Exact.inUnit_value_iff] at hX
  have hpos := OilGas.denominator_pos hoilPos hgasPos hX
  have hmole := moleFraction_value hoil hgas hpos
  obtain ⟨⟨x, hx, hunit⟩, -⟩ := h.exists_moleFraction hb hpossible
  rw [hfraction] at hx ⊢
  have hxvalue := Exact.value.inj (hx.symm.trans hmole)
  rw [hx]
  constructor
  case denominator_pos =>
    rw [hshare, denominator_value hoil hgas]
    exact (Exact.value_lt 0 _).mpr hpos
  case inUnit => exact Exact.inUnit_value_iff.mpr hunit
  case conserved =>
    have hratio := (share_iff hpos.ne').mpr hxvalue
    simp only [hshare, hoil, hgas, Exact.one_eq, Exact.value_sub, Exact.value_mul,
      Exact.value.injEq]
    linear_combination hratio
  case eq_zero_iff =>
    rw [Exact.zero_eq, Exact.value.injEq, Exact.value.injEq, hxvalue, share_eq_zero_iff hpos.ne',
      mul_eq_zero, or_iff_left hoilPos.ne', mul_eq_zero, or_iff_left hc.ne']
  case eq_one_iff =>
    rw [hshare, Exact.one_eq, Exact.value.injEq, Exact.value.injEq, hxvalue,
      share_eq_one_iff hpos.ne', mul_eq_zero, or_iff_left hgasPos.ne', sub_eq_zero, eq_comm]

theorem Converts.eq_value {oil gas X : Rat} (h : m.Converts r b x) (hoil : m.oilMass = .value oil)
    (hgas : m.gasMass = .value gas) (hX : m.massShare r b = .value X) :
    0 < X * oil + (1 - X) * gas ∧ x = .value (X * oil / (X * oil + (1 - X) * gas)) := by
  have hpos := h.denominator_pos
  rw [hX, denominator_value hoil hgas, Exact.value_lt] at hpos
  refine ⟨hpos, ?_⟩
  obtain ⟨-, x, -, rfl, -⟩ := Exact.le_iff.mp h.inUnit.1
  have hconserved := h.conserved
  simp only [hX, hoil, hgas, Exact.one_eq, Exact.value_sub, Exact.value_mul,
    Exact.value.injEq] at hconserved
  rw [Exact.value.injEq, ← share_iff hpos.ne']
  linear_combination hconserved

/-- At one volume factor more dissolved gas has the greater share of the amount. -/
theorem Converts.lt (hm : m.IsPositive) (hb : .value 0 < b) (h : m.Converts r b x)
    (h' : m.Converts r' b x') (hlt : r < r') : x < x' := by
  obtain ⟨oil, hoil, hoilPos⟩ := Exact.exists_value_of_pos hm.oilMass
  obtain ⟨gas, hgas, hgasPos⟩ := Exact.exists_value_of_pos hm.gasMass
  obtain ⟨b, rfl, hb⟩ := Exact.exists_value_of_pos hb
  obtain ⟨r, r', rfl, rfl, hlt⟩ := Exact.lt_iff.mp hlt
  obtain ⟨c, hc, hproportional⟩ := hm.exists_massShare hb
  obtain ⟨hpos, rfl⟩ := h.eq_value hoil hgas (hproportional r).1
  obtain ⟨hpos', rfl⟩ := h'.eq_value hoil hgas (hproportional r').1
  rw [Exact.value_lt]
  have hshares := mul_lt_mul_of_pos_right hlt (mul_pos hc (mul_pos hoilPos hgasPos))
  exact share_lt_share hpos hpos' (by linarith)

section Batches
variable {rs bo : Batch Exact} {pairs : Batch (Exact × Exact)}

theorem IsPositive.possible_pair_iff (hm : m.IsPositive) (hrs : ∀ r ∈ rs.values, r ≠ .undefined)
    (hbo : ∀ b ∈ bo.values, .value 0 < b) (h : Batch.combine Prod.mk rs bo = .ok pairs)
    {p : Exact × Exact} (hp : p ∈ pairs.values) :
    possible (m.massFraction p.1 p.2) ↔ (m.massShare p.1 p.2).InUnit := by
  obtain ⟨hr, hb⟩ := Batch.mem_of_combine_eq_ok h hp
  exact hm.possible_iff (hrs _ hr) (hbo _ hb)

/-- Batches are refused as a whole exactly if a pair of their entries has a share of the mass
that is not possible. Batches without a common shape have no such pair. -/
theorem IsPositive.refuses_iff (hm : m.IsPositive) (hrs : ∀ r ∈ rs.values, r ≠ .undefined)
    (hbo : ∀ b ∈ bo.values, .value 0 < b) :
    (∃ fault, m.moleFractions rs bo = .error fault ∧ fault.kind = .validation) ↔
      ∃ pairs, Batch.combine Prod.mk rs bo = .ok pairs ∧
        ∃ p ∈ pairs.values, ¬(m.massShare p.1 p.2).InUnit := by
  cases hpairs : Batch.combine Prod.mk rs bo with
  | error fault =>
    have hresult : m.moleFractions rs bo = .error fault := by
      rw [moleFractions, Batch.combine_eq_map, hpairs]
      rfl
    constructor
    · rintro ⟨fault', hfault', hkind⟩
      obtain rfl : fault = fault' := Except.error.inj (hresult.symm.trans hfault')
      rw [Batch.kind_of_combine_eq_error hpairs] at hkind
      cases hkind
    · rintro ⟨pairs, h, -⟩
      cases h
  | ok pairs =>
    simp only [Except.ok.injEq, exists_eq_left']
    have hpossible := fun p hp => hm.possible_pair_iff (p := p) hrs hbo hpairs hp
    obtain ⟨hall, hok⟩ | ⟨⟨p, hp, hbad⟩, least, greatest, herror⟩ :=
      moleFractions_of_combine (m := m) hpairs
    · constructor
      · rintro ⟨fault, hfault, -⟩
        cases hok.symm.trans hfault
      · rintro ⟨p, hp, hbad⟩
        exact absurd ((hpossible p hp).mp (hall p hp)) hbad
    · constructor
      · intro _
        exact ⟨p, hp, fun hunit => hbad ((hpossible p hp).mpr hunit)⟩
      · intro _
        exact ⟨_, herror, rfl⟩

theorem IsPositive.exists_converted (hm : m.IsPositive) (hrs : ∀ r ∈ rs.values, r ≠ .undefined)
    (hbo : ∀ b ∈ bo.values, .value 0 < b) (h : Batch.combine Prod.mk rs bo = .ok pairs)
    (hunit : ∀ p ∈ pairs.values, (m.massShare p.1 p.2).InUnit) :
    ∃ xs, m.moleFractions rs bo = .ok ⟨pairs.shape, xs⟩ ∧
      pairs.values.Forall₂ (fun p x => m.Converts p.1 p.2 x) xs := by
  have hall : ∀ p ∈ pairs.values, possible (m.massFraction p.1 p.2) :=
    fun p hp => (hm.possible_pair_iff hrs hbo h hp).mpr (hunit p hp)
  refine ⟨_, (moleFractions_eq_ok_iff h).mpr ⟨hall, rfl⟩, ?_⟩
  rw [List.forall₂_map_right_iff, List.forall₂_same]
  intro p hp
  obtain ⟨hr, hb⟩ := Batch.mem_of_combine_eq_ok h hp
  exact hm.converts (hrs _ hr) (hbo _ hb) (hunit p hp)

/-- Dissolved gas is converted entry by entry so that oil and gas keep their amounts, unless
some entry cannot be converted. More dissolved gas has a greater mole fraction. -/
theorem moleFractions_conserve (hm : m.IsPositive) (hrs : ∀ r ∈ rs.values, r ≠ .undefined)
    (hbo : ∀ b ∈ bo.values, .value 0 < b) :
    ((∃ fault, m.moleFractions rs bo = .error fault ∧ fault.kind = .validation) ↔
      ∃ pairs, Batch.combine Prod.mk rs bo = .ok pairs ∧
        ∃ p ∈ pairs.values, ¬(m.massShare p.1 p.2).InUnit) ∧
    (∀ pairs, Batch.combine Prod.mk rs bo = .ok pairs →
      (∀ p ∈ pairs.values, (m.massShare p.1 p.2).InUnit) →
      ∃ xs, m.moleFractions rs bo = .ok ⟨pairs.shape, xs⟩ ∧
        pairs.values.Forall₂ (fun p x => m.Converts p.1 p.2 x) xs) ∧
    ∀ b r r' x x', .value 0 < b → m.Converts r b x → m.Converts r' b x' → r < r' → x < x' :=
  ⟨hm.refuses_iff hrs hbo, fun _ => hm.exists_converted hrs hbo,
    fun _ _ _ _ _ hb h h' => Converts.lt hm hb h h'⟩

/-- Of two amounts of dissolved gas with one volume factor the first is none. A third is more
than the oil can hold. -/
theorem moleFractions_conserve_scalar : ∃ (m : OilGas Exact) (x x' : Exact),
    m = ⟨800.0, 1.0, 175e-3, 24e-3⟩ ∧
      m.moleFractions (.ofList [0.0, 100.0]) (.scalar 1.3) = .ok ⟨[2], [x, x']⟩ ∧
      x = 0.0 ∧ m.Converts 100.0 1.3 x' ∧ x < x' ∧
      ∃ fault, m.moleFractions (.ofList [0.0, 100.0, 1000.0]) (.scalar 1.3) = .error fault ∧
        fault.kind = .validation := by
  let m : OilGas Exact := ⟨800.0, 1.0, 175e-3, 24e-3⟩
  have hm : m.IsPositive := by constructor <;> decide +kernel
  have hbo : ∀ b ∈ (Batch.scalar (1.3 : Exact)).values, .value 0 < b := by decide +kernel
  have hdefined : ∀ r ∈ (Batch.ofList [(0.0 : Exact), 100.0]).values, r ≠ .undefined := by
    decide +kernel
  have hdefined' : ∀ r ∈ (Batch.ofList [(0.0 : Exact), 100.0, 1000.0]).values,
      r ≠ .undefined := by
    decide +kernel
  obtain ⟨-, hconverted, hlt⟩ := moleFractions_conserve hm hdefined hbo
  obtain ⟨hrefused, -, -⟩ := moleFractions_conserve hm hdefined' hbo
  have hunit : ∀ p ∈ [((0.0 : Exact), (1.3 : Exact)), (100.0, 1.3)],
      (m.massShare p.1 p.2).InUnit := by
    simp only [List.forall_mem_cons, Exact.InUnit]
    decide +kernel
  obtain ⟨xs, hxs, hall⟩ := hconverted ⟨[2], [(0.0, 1.3), (100.0, 1.3)]⟩ rfl hunit
  have hbad : ¬(m.massShare 1000.0 1.3).InUnit := by
    rw [Exact.InUnit]
    decide +kernel
  have herror := hrefused.mpr
    ⟨⟨[3], [(0.0, 1.3), (100.0, 1.3), (1000.0, 1.3)]⟩, rfl, (1000.0, 1.3), by simp, hbad⟩
  cases hall with
  | cons hfirst hall => cases hall with
    | cons hsecond hall =>
      cases hall
      exact ⟨m, _, _, rfl, hxs, hfirst.eq_zero_iff.mpr rfl, hsecond,
        hlt 1.3 0.0 100.0 _ _ (by decide +kernel) hfirst hsecond (by decide +kernel), herror⟩

end Batches
end OilGas
end BlackOil

import BlackOil.Proofs.Curve.Segments
import BlackOil.Proofs.Pvt.LiveOil
import Mathlib.Algebra.Order.Group.MinMax
import Mathlib.Tactic.Linarith

/-!
# The bubble point

The curves of live oil share their records, so one curve on top of another is a third one.
Hence the bubble point undoes the saturated dissolved gas, oil above its bubble point is
exactly the oil that could dissolve more gas, and the saturated volume factor at the bubble
point is that of the dissolved gas. There the two branches of the volume factor join.
-/
namespace BlackOil
namespace LiveOil
variable {t : LiveOil Exact} {x y z : OilRecord Exact → Exact}

/-- A rational quantity that increases strictly from record to record. -/
structure Rises (t : LiveOil Exact) (x : OilRecord Exact → Exact) : Prop where
  rational : ∀ r ∈ t.records, ∃ q, x r = .value q
  increasing : t.records.Pairwise fun r s => x r < x s

namespace Rises

theorem strict_curve (hx : t.Rises x) (hy : ∀ r ∈ t.records, ∃ q, y r = .value q) :
    (t.curve x y).Strict :=
  LiveOil.strict_curve hx.rational hy hx.increasing

theorem extended_lt_extended_iff (hx : t.Rises x) (hy : t.Rises y) {s s' : Rat} :
    (t.curve x y).extended (.value s) < (t.curve x y).extended (.value s') ↔ s < s' := by
  apply (hx.strict_curve hy.rational).extended_lt_extended_iff
  · rw [knots_curve]
    exact List.pairwise_map.mpr hy.increasing
  · exact List.cons_ne_nil _ _

/-- Of two quantities that rise together, the second is looked up between the same records as
the first. -/
theorem bracket_eq (hx : t.Rises x) (hy : t.Rises y) {s m : Rat}
    (hm : (t.curve x y).extended (.value s) = .value m) :
    bracket y (.value m) t.first t.second t.rest =
      bracket x (.value s) t.first t.second t.rest := by
  apply bracket_congr
  intro r hr
  have hmem : r ∈ t.records := List.mem_cons_of_mem t.first hr
  have hvalue := extended_of_record (hx.strict_curve hy.rational) hmem
  obtain ⟨a, ha⟩ := hx.rational r hmem
  obtain ⟨b, hb⟩ := hy.rational r hmem
  rw [ha, hb] at hvalue ⊢
  rw [Exact.precedes_value, Exact.precedes_value, decide_eq_decide, ← Exact.value_lt, ← hm,
    ← hvalue]
  exact hx.extended_lt_extended_iff hy

/-- A curve on top of a rising curve of its abscissae is a curve. -/
theorem extended_extended (hx : t.Rises x) (hy : t.Rises y)
    (hz : ∀ r ∈ t.records, ∃ q, z r = .value q) (s : Rat) :
    (t.curve y z).extended ((t.curve x y).extended (.value s)) =
      (t.curve x z).extended (.value s) := by
  obtain ⟨m, hm⟩ := (hx.strict_curve hy.rational).exists_extended_value s
  have hends := hx.bracket_eq hy hm
  have hmem := bracket_mem x (.value s) (p := t.first) (q := t.second) (l := t.rest)
  have hxlt := bracket_lt hx.increasing (.value s)
  have hylt := bracket_lt hy.increasing (.value m)
  rw [hends] at hylt
  rw [hm, extended_curve t y z, hends, ← hm, extended_curve t x y, extended_curve t x z]
  generalize bracket x (.value s) t.first t.second t.rest = ends at hmem hxlt hylt ⊢
  obtain ⟨lower, upper⟩ := ends
  obtain ⟨a, a', ha, ha', hxlt⟩ := Exact.lt_iff.mp hxlt
  obtain ⟨b, b', hb, hb', hylt⟩ := Exact.lt_iff.mp hylt
  obtain ⟨c, hc⟩ := hz lower hmem.1
  obtain ⟨c', hc'⟩ := hz upper hmem.2
  simp only at ha ha' hb hb' ⊢
  rw [ha, ha', hb, hb', hc, hc']
  exact Curve.line_line hxlt hylt s

/-- The curve of a rising quantity against itself changes nothing. -/
theorem extended_self (hx : t.Rises x) (s : Rat) :
    (t.curve x x).extended (.value s) = .value s := by
  have hlt := bracket_lt hx.increasing (.value s)
  rw [extended_curve t x x]
  obtain ⟨a, a', ha, ha', hlt⟩ := Exact.lt_iff.mp hlt
  simp only
  rw [ha, ha', Curve.line_value hlt, div_self (sub_ne_zero.mpr hlt.ne'), one_mul,
    sub_add_cancel]

theorem extended_inverse (hx : t.Rises x) (hy : t.Rises y) (s : Rat) :
    (t.curve y x).extended ((t.curve x y).extended (.value s)) = .value s := by
  rw [hx.extended_extended hy hx.rational, hx.extended_self]

end Rises

section Saturated
variable {rs pb p : Rat}

/-- The saturated dissolved gas before it is clamped rises with the pressure, and at the bubble
point it is the dissolved gas. -/
theorem lt_extended_iff (hgas : t.Rises OilRecord.dissolvedGas)
    (hpressure : t.Rises OilRecord.bubblePoint) (hpb : t.bubblePoint (.value rs) = .value pb) :
    .value rs < (t.curve OilRecord.bubblePoint OilRecord.dissolvedGas).extended (.value p) ↔
      pb < p := by
  have hback := hgas.extended_inverse hpressure rs
  rw [bubblePoint] at hpb
  rw [hpb] at hback
  rw [← hback]
  exact hpressure.extended_lt_extended_iff hgas

/-- Above its bubble point oil could dissolve more gas. -/
theorem lt_saturatedGas (hgas : t.Rises OilRecord.dissolvedGas)
    (hpressure : t.Rises OilRecord.bubblePoint) (hpb : t.bubblePoint (.value rs) = .value pb)
    (hp : pb < p) : .value rs < t.saturatedGas (.value p) := by
  obtain ⟨g, hg⟩ := (hpressure.strict_curve hgas.rational).exists_extended_value p
  have hlt := (lt_extended_iff hgas hpressure hpb).mpr hp
  rw [hg, Exact.value_lt] at hlt
  rw [saturatedGas, hg, Exact.zero_eq, Exact.maximum_value, Exact.value_lt]
  exact lt_max_of_lt_left hlt

/-- Oil could dissolve more gas exactly above its bubble point. -/
theorem lt_saturatedGas_iff (hgas : t.Rises OilRecord.dissolvedGas)
    (hpressure : t.Rises OilRecord.bubblePoint) (hpb : t.bubblePoint (.value rs) = .value pb)
    (hrs : 0 ≤ rs) : .value rs < t.saturatedGas (.value p) ↔ pb < p := by
  obtain ⟨g, hg⟩ := (hpressure.strict_curve hgas.rational).exists_extended_value p
  rw [← lt_extended_iff hgas hpressure hpb, saturatedGas, hg, Exact.zero_eq, Exact.maximum_value,
    Exact.value_lt, Exact.value_lt, lt_max_iff, or_iff_left (not_lt.mpr hrs)]

end Saturated

/-- Strict live oil whose branches start with a relative volume factor of one. -/
structure Anchored (t : LiveOil Exact) : Prop extends t.Strict where
  branch_zero : ∀ r ∈ t.records, r.branch.extended (.value 0) = .value 1

namespace Tabulates
variable {table : Table Exact}

/-- A branch starts with the saturated row over itself. -/
theorem anchored (h : t.Tabulates table) (hdefined : DefinesBranches table) : t.Anchored where
  toStrict := h.strict_of_branches hdefined
  branch_zero := by
    intro r hr
    have hstrict := (h.strict_of_branches hdefined).branch r hr
    rcases h.branch_cases hdefined hr with hflat | ⟨record, rs, first, rest, hreads, hbranch, hne⟩
    · rw [hflat, ← Exact.one_eq]
      rfl
    · obtain ⟨p, bo, mu, rfl⟩ := hreads.rational first List.mem_cons_self
      have hbo : bo ≠ 0 := fun hzero => hne (congrArg Exact.value hzero)
      have hknot : ⟨.value 0, .value 1⟩ ∈ r.branch.knots := by
        rw [knots_of_branchOf hbranch]
        apply List.mem_map.mpr
        refine ⟨_, List.mem_cons_self, ?_⟩
        rw [Exact.value_sub, sub_self, Exact.value_div hbo, div_self hbo]
      exact hstrict.extended_of_mem (k := ⟨.value 0, .value 1⟩) hknot

end Tabulates

namespace Strict

theorem rises_dissolvedGas (h : t.Strict) : t.Rises OilRecord.dissolvedGas where
  rational r hr := (h.rational r hr).dissolvedGas
  increasing := h.dissolvedGas

theorem rises_bubblePoint (h : t.Strict) : t.Rises OilRecord.bubblePoint where
  rational r hr := (h.rational r hr).bubblePoint
  increasing := h.bubblePoint

/-- The volume factor saturated at the bubble point is that of the dissolved gas. -/
theorem extended_volumeFactor (h : t.Strict) {rs pb : Rat}
    (hpb : t.bubblePoint (.value rs) = .value pb) :
    (t.curve OilRecord.dissolvedGas OilRecord.volumeFactor).extended (.value rs) =
      (t.curve OilRecord.bubblePoint OilRecord.volumeFactor).extended (.value pb) := by
  rw [← hpb]
  exact (h.rises_dissolvedGas.extended_extended h.rises_bubblePoint
    (fun r hr => (h.rational r hr).volumeFactor) rs).symm

end Strict

namespace Anchored
variable {rs pb : Rat}

theorem branchFactor_zero (h : t.Anchored) (rs : Rat) :
    t.branchFactor (.value rs) (.value 0) = .value 1 := by
  obtain ⟨lower, hlower, upper, hupper, a, b, f, g, -, -, -, hf, hg, hfactor, -⟩ :=
    h.exists_branchFactor_eq rs 0
  obtain rfl : f = 1 := Exact.value.inj (hf.symm.trans (h.branch_zero lower hlower))
  obtain rfl : g = 1 := Exact.value.inj (hg.symm.trans (h.branch_zero upper hupper))
  rw [hfactor, mul_one, mul_one, sub_add_cancel]

/-- Saturated or not, the volume factor is the saturated one at the bubble point or before it
times the branch factor beyond. -/
theorem exists_volumeFactor_eq (h : t.Anchored) (hrs : 0 ≤ rs)
    (hpb : t.bubblePoint (.value rs) = .value pb) (floor p : Rat) : ∃ b f : Rat,
      (t.curve OilRecord.bubblePoint OilRecord.volumeFactor).extended (.value (min p pb)) =
        .value b ∧
      t.branchFactor (.value rs) (.value (max (p - pb) 0)) = .value f ∧
      t.volumeFactor (.value floor) (.value p) (.value rs) = .value (max floor (b * f)) := by
  have hcurve := h.curve_bubblePoint fun _ => OilRecord.IsRational.volumeFactor
  obtain ⟨b, hb⟩ := hcurve.exists_extended_value (min p pb)
  obtain ⟨f, hf⟩ := h.exists_branchFactor rs (max (p - pb) 0)
  refine ⟨b, f, hb, hf, ?_⟩
  have habove : .value rs < t.saturatedGas (.value p) ↔ pb < p :=
    lt_saturatedGas_iff h.rises_dissolvedGas h.rises_bubblePoint hpb hrs
  rw [volumeFactor]
  by_cases hp : pb < p
  · rw [min_eq_right hp.le] at hb
    rw [if_pos (habove.mpr hp), undersaturatedVolumeFactor, hpb, h.extended_volumeFactor hpb, hb,
      Exact.zero_eq, Exact.value_sub, Exact.maximum_value, hf, Exact.value_mul,
      Exact.maximum_value, max_comm]
  · rw [min_eq_left (not_lt.mp hp)] at hb
    rw [max_eq_right (sub_nonpos.mpr (not_lt.mp hp)), h.branchFactor_zero] at hf
    obtain rfl : 1 = f := Exact.value.inj hf
    rw [if_neg fun hlt => hp (habove.mp hlt), saturatedVolumeFactor, hb, Exact.maximum_value,
      mul_one, max_comm]

/-- The branches of a list of records have a greatest slope. -/
theorem exists_branch_slope (records : List (OilRecord Exact))
    (h : ∀ r ∈ records, r.branch.Strict) : ∃ K : Rat, 0 ≤ K ∧ ∀ r ∈ records,
      ∀ {x y x' y' : Rat}, r.branch.extended (.value x) = .value y →
        r.branch.extended (.value x') = .value y' → |y' - y| ≤ K * |x' - x| := by
  induction records with
  | nil =>
    refine ⟨0, le_rfl, ?_⟩
    intro r hr
    cases hr
  | cons r records ih =>
    obtain ⟨K, hK, hrest⟩ := ih fun r' hr' => h r' (List.mem_cons_of_mem r hr')
    obtain ⟨K', -, hfirst⟩ := (h r List.mem_cons_self).exists_slope
    refine ⟨max K K', le_max_of_le_left hK, ?_⟩
    intro r' hr' x y x' y' hy hy'
    rcases List.mem_cons.mp hr' with rfl | hr'
    · apply (hfirst hy hy').trans
      exact mul_le_mul_of_nonneg_right (le_max_right K K') (abs_nonneg _)
    · apply (hrest r' hr' hy hy').trans
      exact mul_le_mul_of_nonneg_right (le_max_left K K') (abs_nonneg _)

/-- The branch factor moves away from one at most in proportion to the offset. -/
theorem exists_branchFactor_slope (h : t.Anchored) : ∃ K : Rat, 0 ≤ K ∧
    ∀ {rs offset f : Rat}, t.branchFactor (.value rs) (.value offset) = .value f →
      |f - 1| ≤ K * |offset| := by
  obtain ⟨K, hK, hslope⟩ := exists_branch_slope t.records h.branch
  refine ⟨K, hK, ?_⟩
  intro rs offset f hf
  obtain ⟨lower, hlower, upper, hupper, a, b, f₁, f₂, -, -, -, hf₁, hf₂, hfactor, -⟩ :=
    h.exists_branchFactor_eq rs offset
  have h₁ := hslope lower hlower (h.branch_zero lower hlower) hf₁
  have h₂ := hslope upper hupper (h.branch_zero upper hupper) hf₂
  rw [sub_zero] at h₁ h₂
  obtain rfl := Exact.value.inj (hfactor.symm.trans hf)
  have hweight : 0 ≤ min (max ((rs - a) / (b - a)) 0) 1 :=
    le_min (le_max_right _ 0) zero_le_one
  have hweight' : min (max ((rs - a) / (b - a)) 0) 1 ≤ 1 := min_le_right _ 1
  generalize min (max ((rs - a) / (b - a)) 0) 1 = w at hweight hweight' ⊢
  calc |(1 - w) * f₁ + w * f₂ - 1|
      = |(1 - w) * (f₁ - 1) + w * (f₂ - 1)| := by congr 1; ring
    _ ≤ |(1 - w) * (f₁ - 1)| + |w * (f₂ - 1)| := abs_add_le _ _
    _ = (1 - w) * |f₁ - 1| + w * |f₂ - 1| := by
      rw [abs_mul, abs_mul, abs_of_nonneg hweight, abs_of_nonneg (sub_nonneg.mpr hweight')]
    _ ≤ (1 - w) * (K * |offset|) + w * (K * |offset|) := by
      apply add_le_add
      · exact mul_le_mul_of_nonneg_left h₁ (sub_nonneg.mpr hweight')
      · exact mul_le_mul_of_nonneg_left h₂ hweight
    _ = K * |offset| := by ring

/-- A product moves at most as far as its factors move it. -/
theorem abs_mul_sub_le {b b₀ f u v : Rat} (hb : |b - b₀| ≤ u) (hf : |f - 1| ≤ v) :
    |b * f - b₀| ≤ u * (1 + v) + |b₀| * v := by
  have hsize : |f| ≤ 1 + v := by
    have htriangle := abs_add_le 1 (f - 1)
    rw [add_sub_cancel, abs_one] at htriangle
    linarith
  calc |b * f - b₀| = |(b - b₀) * f + b₀ * (f - 1)| := by congr 1; ring
    _ ≤ |(b - b₀) * f| + |b₀ * (f - 1)| := abs_add_le _ _
    _ = |b - b₀| * |f| + |b₀| * |f - 1| := by rw [abs_mul, abs_mul]
    _ ≤ u * (1 + v) + |b₀| * v := by
      apply add_le_add
      · exact mul_le_mul hb hsize (abs_nonneg f) ((abs_nonneg _).trans hb)
      · exact mul_le_mul_of_nonneg_left hf (abs_nonneg b₀)

/-- The offset beyond a bubble point that moved is no more than both moves. -/
theorem abs_max_sub_zero_le (p' pb pb' : Rat) :
    |max (p' - pb') 0| ≤ |p' - pb| + |pb' - pb| := by
  have htriangle := abs_sub_le p' pb pb'
  rw [abs_sub_comm pb] at htriangle
  rw [abs_of_nonneg (le_max_right _ 0)]
  apply max_le
  · exact (le_abs_self _).trans htriangle
  · exact add_nonneg (abs_nonneg _) (abs_nonneg _)

/-- The pressure before a bubble point that moved is no further off than both moves. -/
theorem abs_min_sub_le (p' pb pb' : Rat) :
    |min p' pb' - pb| ≤ |p' - pb| + |pb' - pb| := by
  have hmin := abs_min_sub_min_le_max p' pb' pb pb
  rw [min_self] at hmin
  apply hmin.trans
  apply max_le
  · exact le_add_of_nonneg_right (abs_nonneg _)
  · exact le_add_of_nonneg_left (abs_nonneg _)

/-- Around the bubble point the volume factor changes at most in proportion to the pressure
and the dissolved gas, whichever branch it is on. -/
theorem exists_volumeFactor_slope (h : t.Anchored)
    (hpb : t.bubblePoint (.value rs) = .value pb) {b₀ : Rat}
    (hb₀ : (t.curve OilRecord.bubblePoint OilRecord.volumeFactor).extended (.value pb) =
      .value b₀) (floor : Rat) : ∃ K : Rat, ∀ rs' p' : Rat, 0 ≤ rs' →
        |p' - pb| + |rs' - rs| ≤ 1 → ∃ bo : Rat,
          t.volumeFactor (.value floor) (.value p') (.value rs') = .value bo ∧
          |bo - max floor b₀| ≤ K * (|p' - pb| + |rs' - rs|) := by
  obtain ⟨Kb, hKb, hb⟩ :=
    (h.curve_bubblePoint fun _ => OilRecord.IsRational.volumeFactor).exists_slope
  obtain ⟨Kp, hKp, hp⟩ :=
    (h.curve_dissolvedGas fun _ => OilRecord.IsRational.bubblePoint).exists_slope
  obtain ⟨Kf, hKf, hf⟩ := h.exists_branchFactor_slope
  refine ⟨Kb * (1 + Kp) * (1 + Kf * (1 + Kp)) + |b₀| * (Kf * (1 + Kp)), ?_⟩
  intro rs' p' hrs' hnear
  obtain ⟨pb', hpb'⟩ := h.exists_bubblePoint rs'
  obtain ⟨b, f, hb', hf', hfactor⟩ := h.exists_volumeFactor_eq hrs' hpb' floor p'
  refine ⟨_, hfactor, ?_⟩
  -- how far the bubble point moves, and with it the offset and the pressure before it
  have hmove : |pb' - pb| ≤ Kp * |rs' - rs| := hp hpb hpb'
  set distance := |p' - pb| + |rs' - rs| with hdistance
  have hshift : |p' - pb| + |pb' - pb| ≤ (1 + Kp) * distance := by
    have hextra := mul_nonneg hKp (abs_nonneg (p' - pb))
    have hgas := abs_nonneg (rs' - rs)
    rw [hdistance]
    linarith
  have hoffset : |max (p' - pb') 0| ≤ (1 + Kp) * distance :=
    (abs_max_sub_zero_le p' pb pb').trans hshift
  have hbefore : |min p' pb' - pb| ≤ (1 + Kp) * distance :=
    (abs_min_sub_le p' pb pb').trans hshift
  have hfactor₁ : |b - b₀| ≤ Kb * ((1 + Kp) * distance) :=
    (hb hb₀ hb').trans (mul_le_mul_of_nonneg_left hbefore hKb)
  have hfactor₂ : |f - 1| ≤ Kf * ((1 + Kp) * distance) :=
    (hf hf').trans (mul_le_mul_of_nonneg_left hoffset hKf)
  have hshort : (1 + Kp) * distance ≤ 1 + Kp :=
    mul_le_of_le_one_right (by linarith) hnear
  calc |max floor (b * f) - max floor b₀|
      ≤ |b * f - b₀| := by
        rw [max_comm, max_comm floor]
        exact abs_max_sub_max_le_abs (b * f) b₀ floor
    _ ≤ Kb * ((1 + Kp) * distance) * (1 + Kf * ((1 + Kp) * distance)) +
        |b₀| * (Kf * ((1 + Kp) * distance)) := abs_mul_sub_le hfactor₁ hfactor₂
    _ ≤ Kb * ((1 + Kp) * distance) * (1 + Kf * (1 + Kp)) +
        |b₀| * (Kf * ((1 + Kp) * distance)) := by gcongr
    _ = (Kb * (1 + Kp) * (1 + Kf * (1 + Kp)) + |b₀| * (Kf * (1 + Kp))) * distance := by ring

end Anchored

/-- The branches of the volume factor join for oil with the dissolved gas `rs`, at the bubble
point `pb` and with the volume factor `bo`. -/
structure Joins (t : LiveOil Exact) (floor rs pb bo : Rat) : Prop where
  bubblePoint : t.bubblePoint (.value rs) = .value pb
  /-- What `LiveOil.volumeFactor` decides its branch by. -/
  undersaturated_iff : ∀ p : Rat, .value rs < t.saturatedGas (.value p) ↔ pb < p
  saturated : t.saturatedVolumeFactor (.value floor) (.value pb) = .value bo
  undersaturated :
    t.undersaturatedVolumeFactor (.value floor) (.value pb) (.value rs) = .value bo
  branchFactor_zero : t.branchFactor (.value rs) (.value 0) = .value 1
  volumeFactor : ∀ p : Rat, ∃ b f : Rat,
    (t.curve OilRecord.bubblePoint OilRecord.volumeFactor).extended (.value (min p pb)) =
      .value b ∧
    t.branchFactor (.value rs) (.value (max (p - pb) 0)) = .value f ∧
    t.volumeFactor (.value floor) (.value p) (.value rs) = .value (max floor (b * f))
  no_jump : ∃ K : Rat, ∀ rs' p' : Rat, 0 ≤ rs' → |p' - pb| + |rs' - rs| ≤ 1 → ∃ bo' : Rat,
    t.volumeFactor (.value floor) (.value p') (.value rs') = .value bo' ∧
    |bo' - bo| ≤ K * (|p' - pb| + |rs' - rs|)

theorem Anchored.exists_joins (h : t.Anchored) (floor : Rat) {rs : Rat} (hrs : 0 ≤ rs) :
    ∃ pb bo, t.Joins floor rs pb bo := by
  obtain ⟨pb, hpb⟩ := h.exists_bubblePoint rs
  have hcurve := h.curve_bubblePoint fun _ => OilRecord.IsRational.volumeFactor
  obtain ⟨b₀, hb₀⟩ := hcurve.exists_extended_value pb
  refine ⟨pb, max floor b₀, ?_⟩
  constructor
  case bubblePoint => exact hpb
  case undersaturated_iff =>
    intro p
    exact lt_saturatedGas_iff h.rises_dissolvedGas h.rises_bubblePoint hpb hrs
  case saturated => rw [saturatedVolumeFactor, hb₀, Exact.maximum_value, max_comm]
  case undersaturated =>
    rw [undersaturatedVolumeFactor, hpb, h.extended_volumeFactor hpb, hb₀, Exact.value_sub,
      sub_self, Exact.zero_eq, Exact.maximum_value, max_self, h.branchFactor_zero,
      Exact.value_mul, mul_one, Exact.maximum_value, max_comm]
  case branchFactor_zero => exact h.branchFactor_zero rs
  case volumeFactor => exact h.exists_volumeFactor_eq hrs hpb floor
  case no_jump => exact h.exists_volumeFactor_slope hpb hb₀ floor

/-- The branches of the volume factor join at the bubble point if the saturated volume factors
of the table are positive. -/
theorem exists_joins_of_ofTable {table : Table Exact} (h : ofTable table = .ok t)
    (hpos : ∀ record ∈ table, ∀ row ∈ (rowsOfThree record.tail).head?, .value 0 < row.2.1)
    (floor : Rat) {rs : Rat} (hrs : 0 ≤ rs) : ∃ pb bo, t.Joins floor rs pb bo := by
  have hdefined : DefinesBranches table := fun record hrecord row hrow _ =>
    (Exact.ne_of_lt (hpos record hrecord row hrow)).symm
  exact ((tabulates_of_ofTable h).anchored hdefined).exists_joins floor hrs

/-- Two records, of which the first has a row above its bubble point. -/
def twoRecords : Table Exact :=
  [[0.0, 1e5, 1.0, 2e-3, 2e7, 0.9, 3e-3], [100.0, 2e7, 1.3, 1e-3]]

theorem exists_joins_of_ofTable_two :
    ∃ t, ofTable twoRecords = .ok t ∧ ∃ pb bo, t.Joins 1e-12 50 pb bo := by
  have hbuilt : (ofTable twoRecords).toOption.isSome := by decide +kernel
  obtain ⟨t, h⟩ := Outcome.exists_ok_of_isSome hbuilt
  have hpos : ∀ record ∈ twoRecords, ∀ row ∈ (rowsOfThree record.tail).head?,
      .value 0 < row.2.1 := by decide +kernel
  exact ⟨t, h, exists_joins_of_ofTable h hpos 1e-12 (by norm_num)⟩

end LiveOil
end BlackOil

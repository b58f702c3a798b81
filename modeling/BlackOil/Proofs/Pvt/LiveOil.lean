import BlackOil.Proofs.Pvt.Table

/-!
# Strict live oil

Live oil from a table of rational numbers has strictly increasing curves. So what it gives
at a rational pressure and dissolved gas is rational, and no volume factor is below the
floor. At the dissolved gas of one of its records it follows the branch of that record
alone.
-/
namespace BlackOil

/-- A record whose saturated state consists of rational numbers. -/
structure OilRecord.IsRational (r : OilRecord Exact) : Prop where
  dissolvedGas : ∃ q, r.dissolvedGas = .value q
  bubblePoint : ∃ q, r.bubblePoint = .value q
  volumeFactor : ∃ q, r.volumeFactor = .value q
  viscosity : ∃ q, r.viscosity = .value q

/-- The live oil has rational records in the order of strictly increasing dissolved gas and
bubble point, and the offsets of every branch increase strictly. -/
structure LiveOil.Strict (t : LiveOil Exact) : Prop where
  rational : ∀ r ∈ t.records, r.IsRational
  dissolvedGas : t.records.Pairwise fun r s => r.dissolvedGas < s.dissolvedGas
  bubblePoint : t.records.Pairwise fun r s => r.bubblePoint < s.bubblePoint
  branch : ∀ r ∈ t.records, r.branch.Strict

namespace LiveOil
variable {t : LiveOil Exact} {r : OilRecord Exact} {x y : OilRecord Exact → Exact}

/-- Every record with rows above its bubble point has a saturated volume factor other than
zero, so that its branch is defined. -/
def DefinesBranches (table : Table Exact) : Prop :=
  ∀ record ∈ table, ∀ row ∈ (rowsOfThree record.tail).head?,
    1 < (rowsOfThree record.tail).length → row.2.1 ≠ .value 0

instance (table : Table Exact) : Decidable (DefinesBranches table) :=
  inferInstanceAs (Decidable (∀ _ ∈ _, _))

namespace Tabulates
variable {table : Table Exact}

theorem rational (h : t.Tabulates table) : ∀ r ∈ t.records, r.IsRational := by
  intro r hr
  obtain ⟨record, -, rest, hholds⟩ := h.exists_holds r hr
  obtain ⟨pb, bo, mu, hrow⟩ := hholds.reads.rational _ List.mem_cons_self
  simp only [saturatedRow, Prod.mk.injEq] at hrow
  exact ⟨hholds.reads.dissolvedGas, ⟨pb, hrow.1⟩, ⟨bo, hrow.2.1⟩, ⟨mu, hrow.2.2⟩⟩

/-- A branch that is not flat is read off a record and defined. -/
theorem branch_cases (h : t.Tabulates table) (hdefined : DefinesBranches table)
    (hr : r ∈ t.records) : r.branch = flatBranch ∨ ∃ record rs first rest,
      Reads record rs first rest ∧ branchOf first rest = some r.branch ∧
      first.2.1 ≠ .value 0 := by
  refine (h.branch r hr).imp_right ?_
  rintro ⟨record, hrecord, rs, first, rest, hreads, hbranch⟩
  refine ⟨record, rs, first, rest, hreads, hbranch, ?_⟩
  have hrows := hreads.rowsOfThree_eq
  apply hdefined record hrecord first
  · rw [hrows]
    rfl
  · cases rest with
    | nil => cases hbranch
    | cons row rest => simp [hrows]

theorem strict_of_branches (h : t.Tabulates table) (hdefined : DefinesBranches table) :
    t.Strict where
  rational := h.rational
  dissolvedGas := h.dissolvedGas
  bubblePoint := h.bubblePoint
  branch := by
    intro r hr
    rcases h.branch_cases hdefined hr with hflat | ⟨record, rs, first, rest, hreads, hbranch, hne⟩
    · rw [hflat]
      exact strict_flatBranch
    · exact hreads.strict_branch hne hbranch

/-- Live oil from a table whose volume factors are not zero is strict. -/
theorem strict (h : t.Tabulates table)
    (hne : ∀ record ∈ table, ∀ row ∈ rowsOfThree record.tail, row.2.1 ≠ .value 0) :
    t.Strict :=
  h.strict_of_branches fun record hrecord row hrow _ =>
    hne record hrecord row (List.mem_of_mem_head? hrow)

end Tabulates

/-- One rational quantity of the records against another is a strict curve if it increases. -/
theorem strict_curve (hx : ∀ r ∈ t.records, ∃ q, x r = .value q)
    (hy : ∀ r ∈ t.records, ∃ q, y r = .value q) (hlt : t.records.Pairwise fun r s => x r < x s) :
    (t.curve x y).Strict where
  rational := by
    intro k hk
    rw [knots_curve] at hk
    obtain ⟨r, hr, rfl⟩ := List.mem_map.mp hk
    obtain ⟨a, ha⟩ := hx r hr
    obtain ⟨b, hb⟩ := hy r hr
    exact ⟨a, b, by rw [ha, hb]⟩
  increasing := by
    rw [knots_curve]
    exact List.pairwise_map.mpr hlt

/-- A curve of two quantities of the records is looked up between two records. -/
theorem extended_curve (t : LiveOil Exact) (x y : OilRecord Exact → Exact) (s : Exact) :
    (t.curve x y).extended s =
      let ends := bracket x s t.first t.second t.rest
      Curve.line ⟨x ends.1, y ends.1⟩ ⟨x ends.2, y ends.2⟩ s := by
  have hends := bracket_map Knot.x (fun r => (⟨x r, y r⟩ : Knot Exact)) s t.first t.second t.rest
  simp only [curve, Curve.extended, hends]
  rfl

/-- A strict curve gives the records back. -/
theorem extended_of_record (h : (t.curve x y).Strict) (hr : r ∈ t.records) :
    (t.curve x y).extended (x r) = y r := by
  have hknot : ⟨x r, y r⟩ ∈ (t.curve x y).knots := by
    rw [knots_curve]
    exact List.mem_map.mpr ⟨r, hr, rfl⟩
  exact h.extended_of_mem hknot

namespace Strict

theorem curve_bubblePoint (h : t.Strict) (hy : ∀ r : OilRecord Exact, r.IsRational →
    ∃ q, y r = .value q) : (t.curve OilRecord.bubblePoint y).Strict :=
  strict_curve (fun r hr => (h.rational r hr).bubblePoint) (fun r hr => hy r (h.rational r hr))
    h.bubblePoint

theorem curve_dissolvedGas (h : t.Strict) (hy : ∀ r : OilRecord Exact, r.IsRational →
    ∃ q, y r = .value q) : (t.curve OilRecord.dissolvedGas y).Strict :=
  strict_curve (fun r hr => (h.rational r hr).dissolvedGas) (fun r hr => hy r (h.rational r hr))
    h.dissolvedGas

theorem exists_saturatedGas (h : t.Strict) (pressure : Rat) :
    ∃ rs, t.saturatedGas (.value pressure) = .value rs ∧ 0 ≤ rs := by
  obtain ⟨rs, hrs⟩ :=
    (h.curve_bubblePoint fun _ => OilRecord.IsRational.dissolvedGas).exists_extended_value pressure
  exact ⟨max rs 0, by rw [saturatedGas, hrs, Exact.zero_eq, Exact.maximum_value],
    le_max_right rs 0⟩

theorem exists_saturatedVolumeFactor (h : t.Strict) (floor pressure : Rat) :
    ∃ bo, t.saturatedVolumeFactor (.value floor) (.value pressure) = .value bo ∧ floor ≤ bo := by
  obtain ⟨bo, hbo⟩ :=
    (h.curve_bubblePoint fun _ => OilRecord.IsRational.volumeFactor).exists_extended_value pressure
  exact ⟨max bo floor, by rw [saturatedVolumeFactor, hbo, Exact.maximum_value],
    le_max_right bo floor⟩

theorem exists_bubblePoint (h : t.Strict) (dissolvedGas : Rat) :
    ∃ pb, t.bubblePoint (.value dissolvedGas) = .value pb :=
  (h.curve_dissolvedGas fun _ => OilRecord.IsRational.bubblePoint).exists_extended_value
    dissolvedGas

/-- The relative volume factor is a weighted mean of what the branches of two records give.
A record with the given dissolved gas is one of the two. -/
theorem exists_branchFactor_eq (h : t.Strict) (dissolvedGas offset : Rat) :
    ∃ lower ∈ t.records, ∃ upper ∈ t.records, ∃ a b f g : Rat,
      lower.dissolvedGas = .value a ∧ upper.dissolvedGas = .value b ∧ a < b ∧
      lower.branch.extended (.value offset) = .value f ∧
      upper.branch.extended (.value offset) = .value g ∧
      t.branchFactor (.value dissolvedGas) (.value offset) =
        .value ((1 - min (max ((dissolvedGas - a) / (b - a)) 0) 1) * f +
          min (max ((dissolvedGas - a) / (b - a)) 0) 1 * g) ∧
      ∀ r ∈ t.records, r.dissolvedGas = .value dissolvedGas → r = lower ∨ r = upper := by
  have hmem := bracket_mem OilRecord.dissolvedGas (.value dissolvedGas) (p := t.first)
    (q := t.second) (l := t.rest)
  have hlt := bracket_lt h.dissolvedGas (.value dissolvedGas)
  have hend : ∀ r ∈ t.records, r.dissolvedGas = .value dissolvedGas →
      r = (bracket OilRecord.dissolvedGas (.value dissolvedGas) t.first t.second t.rest).1 ∨
        r = (bracket OilRecord.dissolvedGas (.value dissolvedGas) t.first t.second t.rest).2 := by
    intro r hr hgas
    rw [← hgas]
    exact eq_or_eq_of_bracket h.dissolvedGas hr
  unfold branchFactor
  generalize bracket OilRecord.dissolvedGas (.value dissolvedGas) t.first t.second t.rest = ends
    at hmem hlt hend ⊢
  obtain ⟨lower, upper⟩ := ends
  obtain ⟨a, b, ha, hb, hab⟩ := Exact.lt_iff.mp hlt
  obtain ⟨f, hf⟩ := (h.branch lower hmem.1).exists_extended_value offset
  obtain ⟨g, hg⟩ := (h.branch upper hmem.2).exists_extended_value offset
  refine ⟨lower, hmem.1, upper, hmem.2, a, b, f, g, ha, hb, hab, hf, hg, ?_, hend⟩
  have hspan : b - a ≠ 0 := sub_ne_zero.mpr hab.ne'
  simp only at ha hb
  simp only [ha, hb, hf, hg, Exact.zero_eq, Exact.one_eq, Exact.value_sub, Exact.value_div hspan,
    Exact.clip_value, Exact.value_mul, Exact.value_add]

/-- At the dissolved gas of a record its own branch counts alone. -/
theorem branchFactor_of_record (h : t.Strict) (hr : r ∈ t.records) (offset : Rat) :
    t.branchFactor r.dissolvedGas (.value offset) = r.branch.extended (.value offset) := by
  obtain ⟨rs, hrs⟩ := (h.rational r hr).dissolvedGas
  obtain ⟨lower, -, upper, -, a, b, f, g, ha, hb, hab, hf, hg, hfactor, hend⟩ :=
    h.exists_branchFactor_eq rs offset
  rw [hrs, hfactor]
  obtain rfl | rfl := hend r hr hrs
  · -- the weight of the upper record is zero
    obtain rfl : a = rs := Exact.value.inj (ha.symm.trans hrs)
    rw [hf]
    simp
  · -- the weight of the lower record is zero
    obtain rfl : b = rs := Exact.value.inj (hb.symm.trans hrs)
    rw [hg, div_self (sub_ne_zero.mpr hab.ne')]
    simp

theorem exists_branchFactor (h : t.Strict) (dissolvedGas offset : Rat) :
    ∃ f, t.branchFactor (.value dissolvedGas) (.value offset) = .value f := by
  obtain ⟨lower, -, upper, -, a, b, f, g, -, -, -, -, -, hfactor, -⟩ :=
    h.exists_branchFactor_eq dissolvedGas offset
  exact ⟨_, hfactor⟩

theorem exists_undersaturatedVolumeFactor (h : t.Strict) (floor pressure dissolvedGas : Rat) :
    ∃ bo, t.undersaturatedVolumeFactor (.value floor) (.value pressure) (.value dissolvedGas) =
      .value bo ∧ floor ≤ bo := by
  obtain ⟨pb, hpb⟩ := h.exists_bubblePoint dissolvedGas
  obtain ⟨bo, hbo⟩ :=
    (h.curve_dissolvedGas fun _ => OilRecord.IsRational.volumeFactor).exists_extended_value
      dissolvedGas
  obtain ⟨f, hf⟩ := h.exists_branchFactor dissolvedGas (max (pressure - pb) 0)
  refine ⟨max (bo * f) floor, ?_, le_max_right _ floor⟩
  simp only [undersaturatedVolumeFactor, hpb, hbo, hf, Exact.zero_eq, Exact.value_sub,
    Exact.maximum_value, Exact.value_mul]

/-- Saturated or not, the volume factor is a rational number not below the floor. -/
theorem exists_volumeFactor (h : t.Strict) (floor pressure dissolvedGas : Rat) :
    ∃ bo, t.volumeFactor (.value floor) (.value pressure) (.value dissolvedGas) = .value bo ∧
      floor ≤ bo := by
  unfold volumeFactor
  split
  · exact h.exists_undersaturatedVolumeFactor floor pressure dissolvedGas
  · exact h.exists_saturatedVolumeFactor floor pressure

end Strict
end LiveOil
end BlackOil

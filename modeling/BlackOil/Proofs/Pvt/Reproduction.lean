import BlackOil.Proofs.Pvt.BubblePoint

/-!
# Reproduced tables of live oil

Live oil gives the rows of its table back: the saturated rows by its saturated curves, and
a row above the bubble point by the volume factor at the dissolved gas of its record.
-/
namespace BlackOil
namespace LiveOil
variable {t : LiveOil Exact} {r : OilRecord Exact} {floor : Exact}

/-- The live oil gives the dissolved gas and the rows of a record back. -/
structure Reproduces (t : LiveOil Exact) (floor rs : Exact) (first : Row Exact)
    (rest : List (Row Exact)) : Prop where
  saturatedGas : t.saturatedGas first.1 = Scalar.maximum rs 0.0
  bubblePoint : t.bubblePoint rs = first.1
  saturatedVolumeFactor : t.saturatedVolumeFactor floor first.1 = first.2.1
  viscosity : t.viscosity floor first.1 = first.2.2
  undersaturated : ∀ row ∈ rest, t.volumeFactor floor row.1 rs = row.2.1

theorem maximum_eq_left {x floor : Exact} (h : floor ≤ x) : Scalar.maximum x floor = x :=
  if_pos (.inl h)

namespace Strict

theorem bubblePoint_of_record (h : t.Strict) (hr : r ∈ t.records) :
    t.bubblePoint r.dissolvedGas = r.bubblePoint :=
  extended_of_record (h.curve_dissolvedGas fun _ => OilRecord.IsRational.bubblePoint) hr

theorem extended_bubblePoint (h : t.Strict) (hr : r ∈ t.records) {y : OilRecord Exact → Exact}
    (hy : ∀ r : OilRecord Exact, r.IsRational → ∃ q, y r = .value q) :
    (t.curve OilRecord.bubblePoint y).extended r.bubblePoint = y r :=
  extended_of_record (h.curve_bubblePoint hy) hr

theorem saturatedGas_of_record (h : t.Strict) (hr : r ∈ t.records) :
    t.saturatedGas r.bubblePoint = Scalar.maximum r.dissolvedGas 0.0 := by
  rw [saturatedGas, h.extended_bubblePoint hr fun _ => OilRecord.IsRational.dissolvedGas]

theorem saturatedVolumeFactor_of_record (h : t.Strict) (hr : r ∈ t.records)
    (hfloor : floor ≤ r.volumeFactor) :
    t.saturatedVolumeFactor floor r.bubblePoint = r.volumeFactor := by
  rw [saturatedVolumeFactor, h.extended_bubblePoint hr fun _ => OilRecord.IsRational.volumeFactor]
  exact maximum_eq_left hfloor

theorem viscosity_of_record (h : t.Strict) (hr : r ∈ t.records) (hfloor : floor ≤ r.viscosity) :
    t.viscosity floor r.bubblePoint = r.viscosity := by
  rw [viscosity, h.extended_bubblePoint hr fun _ => OilRecord.IsRational.viscosity]
  exact maximum_eq_left hfloor

/-- Above its bubble point oil with the dissolved gas of a record could dissolve more. -/
theorem dissolvedGas_lt_saturatedGas (h : t.Strict) (hr : r ∈ t.records) {pressure : Rat}
    (hp : r.bubblePoint < .value pressure) :
    r.dissolvedGas < t.saturatedGas (.value pressure) := by
  have hpb := h.bubblePoint_of_record hr
  obtain ⟨rs, hrs⟩ := (h.rational r hr).dissolvedGas
  obtain ⟨pb, hpressure⟩ := (h.rational r hr).bubblePoint
  rw [hrs, hpressure] at hpb
  rw [hpressure, Exact.value_lt] at hp
  rw [hrs]
  exact lt_saturatedGas h.rises_dissolvedGas h.rises_bubblePoint hpb hp

/-- A knot of the branch of a record gives the volume factor that far above the bubble
point. -/
theorem volumeFactor_of_knot (h : t.Strict) (hr : r ∈ t.records) {offset factor : Rat}
    (hk : ⟨.value offset, .value factor⟩ ∈ r.branch.knots) (hpos : 0 < offset) (floor : Exact) :
    t.volumeFactor floor (r.bubblePoint + .value offset) r.dissolvedGas =
      Scalar.maximum (r.volumeFactor * .value factor) floor := by
  obtain ⟨pb, hpb⟩ := (h.rational r hr).bubblePoint
  have habove : r.bubblePoint < .value (pb + offset) := by
    rw [hpb, Exact.value_lt]
    exact lt_add_of_pos_right pb hpos
  have hoffset : Scalar.maximum (r.bubblePoint + .value offset - r.bubblePoint) 0.0 =
      .value offset := by
    rw [hpb, Exact.zero_eq, Exact.value_add, Exact.value_sub, add_sub_cancel_left,
      Exact.maximum_value, max_eq_left hpos.le]
  have hgas : r.dissolvedGas < t.saturatedGas (r.bubblePoint + .value offset) := by
    rw [hpb, Exact.value_add]
    exact h.dissolvedGas_lt_saturatedGas hr habove
  have hfactor : (t.curve OilRecord.dissolvedGas OilRecord.volumeFactor).extended r.dissolvedGas =
      r.volumeFactor :=
    extended_of_record (h.curve_dissolvedGas fun _ => OilRecord.IsRational.volumeFactor) hr
  rw [volumeFactor, if_pos hgas]
  simp only [undersaturatedVolumeFactor, h.bubblePoint_of_record hr, hoffset, hfactor,
    h.branchFactor_of_record hr]
  rw [(h.branch r hr).extended_of_mem hk]

end Strict

/-- At the dissolved gas of a record the volume factor is that of its rows above the bubble
point: the relative factor of the branch cancels against the factor at the bubble point. -/
theorem Holds.volumeFactor_of_row {record : Record Exact} {rest : List (Row Exact)}
    (hholds : Holds r record rest) (h : t.Strict) (hr : r ∈ t.records)
    (hzero : r.volumeFactor ≠ .value 0) {row : Row Exact} (hrow : row ∈ rest)
    (hfloor : floor ≤ row.2.1) : t.volumeFactor floor row.1 r.dissolvedGas = row.2.1 := by
  have hknot := hholds.knot_mem hrow
  have hlt : r.bubblePoint < row.1 := List.rel_of_pairwise_cons hholds.reads.increasing hrow
  obtain ⟨p, bo, mu, rfl⟩ := hholds.reads.rational row (List.mem_cons_of_mem _ hrow)
  obtain ⟨pb, hpb⟩ := (h.rational r hr).bubblePoint
  obtain ⟨bob, hbob⟩ := (h.rational r hr).volumeFactor
  have hne : bob ≠ 0 := fun hb => hzero (by rw [hbob, hb])
  rw [hpb, hbob, Exact.value_sub, Exact.value_div hne] at hknot
  rw [hpb, Exact.value_lt] at hlt
  have hfactor := h.volumeFactor_of_knot hr hknot (sub_pos.mpr hlt) floor
  rw [hpb, hbob, Exact.value_add, add_sub_cancel, Exact.value_mul, mul_div_cancel₀ _ hne]
    at hfactor
  exact hfactor.trans (maximum_eq_left hfloor)

/-- A record is reproduced if no volume factor and no viscosity of it is below the floor. -/
theorem Holds.reproduces {record : Record Exact} {rest : List (Row Exact)}
    (hholds : Holds r record rest) (h : t.Strict) (hr : r ∈ t.records)
    (hzero : r.volumeFactor ≠ .value 0)
    (hfloor : ∀ row ∈ saturatedRow r :: rest, floor ≤ row.2.1 ∧ floor ≤ row.2.2) :
    t.Reproduces floor r.dissolvedGas (saturatedRow r) rest where
  saturatedGas := h.saturatedGas_of_record hr
  bubblePoint := h.bubblePoint_of_record hr
  saturatedVolumeFactor :=
    h.saturatedVolumeFactor_of_record hr (hfloor _ List.mem_cons_self).1
  viscosity := h.viscosity_of_record hr (hfloor _ List.mem_cons_self).2
  undersaturated row hrow :=
    hholds.volumeFactor_of_row h hr hzero hrow (hfloor row (List.mem_cons_of_mem _ hrow)).1

/-- Live oil gives every record of its table back if no volume factor and no viscosity of the
table is below the floor. -/
theorem exists_reproduces_of_ofTable {table : Table Exact} (h : ofTable table = .ok t)
    (hpos : 0.0 < floor)
    (hfloor : ∀ record ∈ table, ∀ row ∈ rowsOfThree record.tail,
      floor ≤ row.2.1 ∧ floor ≤ row.2.2) :
    ∀ record ∈ table, ∃ rs first rest, record = rs :: (first :: rest).flatMap Row.values ∧
      t.Reproduces floor rs first rest := by
  have htabulates := tabulates_of_ofTable h
  have hzero : ∀ record ∈ table, ∀ row ∈ rowsOfThree record.tail, row.2.1 ≠ .value 0 := by
    intro record hrecord row hrow hfactor
    have hle := (hfloor record hrecord row hrow).1
    rw [hfactor, ← Exact.zero_eq] at hle
    exact Exact.not_le_of_lt hpos hle
  intro record hrecord
  obtain ⟨r, hr, rest, hholds⟩ := htabulates.exists_record record hrecord
  have hrows := hholds.reads.rowsOfThree_eq
  refine ⟨_, _, rest, hholds.reads.record_eq, ?_⟩
  refine hholds.reproduces (htabulates.strict hzero) hr ?_ fun row hrow => ?_
  · exact hzero record hrecord _ (hrows ▸ List.mem_cons_self)
  · exact hfloor record hrecord row (hrows ▸ hrow)

/-- Three records, of which the one in the middle has two rows above its bubble point. -/
def threeRecords : Table Exact :=
  [[0.0, 1e5, 1.0, 2e-3], [50.0, 1e7, 1.2, 1e-3, 2e7, 1.1, 1.5e-3, 3e7, 1.0, 2e-3],
    [100.0, 4e7, 1.4, 5e-4]]

/-- The record in the middle of three. -/
theorem exists_reproduces_of_ofTable_middle : ∃ t, ofTable threeRecords = .ok t ∧
    (0.0 : Exact) < 1e-12 ∧
    t.Reproduces 1e-12 50.0 (1e7, 1.2, 1e-3) [(2e7, 1.1, 1.5e-3), (3e7, 1.0, 2e-3)] := by
  have hbuilt : (ofTable threeRecords).toOption.isSome := by decide +kernel
  obtain ⟨t, h⟩ := Outcome.exists_ok_of_isSome hbuilt
  have hpos : (0.0 : Exact) < 1e-12 := by decide +kernel
  have hfloor : ∀ record ∈ threeRecords, ∀ row ∈ rowsOfThree record.tail,
      1e-12 ≤ row.2.1 ∧ 1e-12 ≤ row.2.2 := by decide +kernel
  have hmem : [50.0, 1e7, 1.2, 1e-3, 2e7, 1.1, 1.5e-3, 3e7, 1.0, 2e-3] ∈ threeRecords :=
    List.mem_cons_of_mem _ List.mem_cons_self
  obtain ⟨rs, first, rest, hrecord, hreproduces⟩ :=
    exists_reproduces_of_ofTable h hpos hfloor _ hmem
  obtain ⟨rfl, hvalues⟩ := List.cons.inj hrecord
  have hrows := congrArg rowsOfThree hvalues
  rw [rowsOfThree_flatMap] at hrows
  cases hrows
  exact ⟨t, h, hpos, hreproduces⟩

end LiveOil
end BlackOil

import BlackOil.Proofs.Pvt.BubblePoint

/-!
# Dissolved gas and bubble point

The curves of the dissolved gas and of the bubble point have the same knots with their
coordinates exchanged, so that each undoes the other, also beyond the records. What keeps
them from being inverse is that the dissolved gas is not allowed to be negative: at a
pressure for which its curve lies below zero, the way back leads to the bubble point of oil
without gas.
-/
namespace BlackOil.LiveOil
variable {t : LiveOil Exact}

/-- The dissolved gas at a pressure, negative where the curve is. -/
def unclampedGas {α : Type} [Scalar α] (t : LiveOil α) (pressure : α) : α :=
  (t.curve OilRecord.bubblePoint OilRecord.dissolvedGas).extended pressure

/-- The dissolved gas and the bubble point are inverse to each other as far as there is
dissolved gas, and both rise. -/
structure Inverse (t : LiveOil Exact) : Prop where
  saturatedGas_bubblePoint : ∀ rs : Rat,
    t.saturatedGas (t.bubblePoint (.value rs)) = .value (max rs 0)
  bubblePoint_saturatedGas_iff : ∀ p : Rat,
    t.bubblePoint (t.saturatedGas (.value p)) = .value p ↔ .value 0 ≤ t.unclampedGas (.value p)
  /-- Where the curve lies below zero, its clamped value has a larger bubble point. -/
  lt_bubblePoint_saturatedGas : ∀ p : Rat, t.unclampedGas (.value p) < .value 0 →
    .value p < t.bubblePoint (t.saturatedGas (.value p))
  bubblePoint_lt_iff : ∀ rs rs' : Rat,
    t.bubblePoint (.value rs) < t.bubblePoint (.value rs') ↔ rs < rs'
  saturatedGas_mono : ∀ p p' : Rat, p ≤ p' →
    t.saturatedGas (.value p) ≤ t.saturatedGas (.value p')
  saturatedGas_nonneg : ∀ p : Rat, .value 0 ≤ t.saturatedGas (.value p)

section Rising
variable (hgas : t.Rises OilRecord.dissolvedGas) (hpressure : t.Rises OilRecord.bubblePoint)
include hgas hpressure

/-- The curve of the dissolved gas is defined everywhere, and the clamp is all that the
saturated dissolved gas adds to it. -/
theorem exists_unclampedGas (p : Rat) : ∃ g : Rat, t.unclampedGas (.value p) = .value g ∧
    t.saturatedGas (.value p) = .value (max g 0) ∧ t.bubblePoint (.value g) = .value p := by
  obtain ⟨g, hg⟩ := (hpressure.strict_curve hgas.rational).exists_extended_value p
  have hback := hpressure.extended_inverse hgas p
  rw [hg] at hback
  refine ⟨g, hg, ?_, hback⟩
  rw [saturatedGas, hg, Exact.zero_eq, Exact.maximum_value]

theorem bubblePoint_lt_bubblePoint_iff {rs rs' : Rat} :
    t.bubblePoint (.value rs) < t.bubblePoint (.value rs') ↔ rs < rs' :=
  hgas.extended_lt_extended_iff hpressure

theorem unclampedGas_lt_unclampedGas_iff {p p' : Rat} :
    t.unclampedGas (.value p) < t.unclampedGas (.value p') ↔ p < p' :=
  hpressure.extended_lt_extended_iff hgas

theorem inverse_of_rises : t.Inverse where
  saturatedGas_bubblePoint rs := by
    rw [saturatedGas, bubblePoint, hgas.extended_inverse hpressure, Exact.zero_eq,
      Exact.maximum_value]
  bubblePoint_saturatedGas_iff p := by
    obtain ⟨g, hg, hsaturated, hback⟩ := exists_unclampedGas hgas hpressure p
    rw [hsaturated, hg, Exact.value_le]
    constructor
    · intro h
      -- a clamped value would have a larger bubble point
      by_contra hneg
      rw [max_eq_right (not_le.mp hneg).le] at h
      have hlt := (bubblePoint_lt_bubblePoint_iff hgas hpressure).mpr (not_le.mp hneg)
      rw [hback, h] at hlt
      exact Exact.ne_of_lt hlt rfl
    · intro hnonneg
      rw [max_eq_left hnonneg, hback]
  lt_bubblePoint_saturatedGas p := by
    obtain ⟨g, hg, hsaturated, hback⟩ := exists_unclampedGas hgas hpressure p
    rw [hsaturated, hg, Exact.value_lt, ← hback]
    intro hneg
    rw [max_eq_right hneg.le]
    exact (bubblePoint_lt_bubblePoint_iff hgas hpressure).mpr hneg
  bubblePoint_lt_iff _ _ := bubblePoint_lt_bubblePoint_iff hgas hpressure
  saturatedGas_mono p p' hle := by
    obtain ⟨g, hg, hsaturated, -⟩ := exists_unclampedGas hgas hpressure p
    obtain ⟨g', hg', hsaturated', -⟩ := exists_unclampedGas hgas hpressure p'
    have hgas_le : g ≤ g' := by
      have hnot := mt (unclampedGas_lt_unclampedGas_iff hgas hpressure).mp (not_lt.mpr hle)
      rw [hg, hg', Exact.value_lt] at hnot
      exact not_lt.mp hnot
    rw [hsaturated, hsaturated', Exact.value_le]
    exact max_le_max hgas_le le_rfl
  saturatedGas_nonneg p := by
    obtain ⟨g, -, hsaturated, -⟩ := exists_unclampedGas hgas hpressure p
    rw [hsaturated, Exact.value_le]
    exact le_max_right g 0

end Rising

section Columns
variable {α : Type} [Scalar α] {dissolvedGas bubblePoints volumeFactors viscosities : List α}
  {branches : List (Option (Curve α))}

/-- The records keep the columns that they are made of. -/
theorem map_records_of_ofColumns {t : LiveOil α}
    (h : ofColumns dissolvedGas bubblePoints volumeFactors viscosities branches = .ok t) :
    t.records.map OilRecord.dissolvedGas = dissolvedGas ∧
      t.records.map OilRecord.bubblePoint = bubblePoints := by
  obtain ⟨-, -, hlengths, curves, -, hcurves, hrecords⟩ := ofColumns_eq_ok h
  have hpressures : bubblePoints.length = dissolvedGas.length := hlengths _ (by simp)
  have hfactors : volumeFactors.length = dissolvedGas.length := hlengths _ (by simp)
  have hviscosities : viscosities.length = dissolvedGas.length := hlengths _ (by simp)
  rw [hrecords]
  constructor
  · refine List.ext_getElem ?_ fun i hi hi' => ?_
    · simp [hpressures, hfactors, hviscosities, hcurves]
    · simp
  · refine List.ext_getElem ?_ fun i hi hi' => ?_
    · simp [hpressures, hfactors, hviscosities, hcurves]
    · simp

end Columns

/-- Live oil from columns of rational numbers has inverse curves of dissolved gas and bubble
point, whatever its volume factors, viscosities and branches are. -/
theorem inverse_of_ofColumns {dissolvedGas bubblePoints volumeFactors viscosities : List Exact}
    {branches : List (Option (Curve Exact))} (hgas : ∀ x ∈ dissolvedGas, ∃ q, x = .value q)
    (hpressure : ∀ x ∈ bubblePoints, ∃ q, x = .value q)
    (h : ofColumns dissolvedGas bubblePoints volumeFactors viscosities branches = .ok t) :
    t.Inverse := by
  obtain ⟨hgasSteps, hpressureSteps, -⟩ := ofColumns_eq_ok h
  obtain ⟨hgasColumn, hpressureColumn⟩ := map_records_of_ofColumns h
  rw [← hgasColumn] at hgas hgasSteps
  rw [← hpressureColumn] at hpressure hpressureSteps
  apply inverse_of_rises
  · exact ⟨fun r hr => hgas _ (List.mem_map_of_mem hr),
      List.pairwise_map.mp (pairwise_of_checkIncreasing hgas hgasSteps)⟩
  · exact ⟨fun r hr => hpressure _ (List.mem_map_of_mem hr),
      List.pairwise_map.mp (pairwise_of_checkIncreasing hpressure hpressureSteps)⟩

/-- Oil whose dissolved gas falls below zero at low pressure. -/
theorem inverse_of_ofColumns_two :
    (∀ x ∈ [Exact.value 1, .value 3], ∃ q, x = .value q) ∧
      (∀ x ∈ [Exact.value 100, .value 150], ∃ q, x = .value q) ∧
      ∃ t : LiveOil Exact, ofColumns [.value 1, .value 3] [.value 100, .value 150]
        [.value 1, .value 1] [.value 1, .value 1] [some flatBranch, some flatBranch] = .ok t ∧
          t.Inverse := by
  have hgas : ∀ x ∈ [Exact.value 1, .value 3], ∃ q, x = .value q := by simp
  have hpressure : ∀ x ∈ [Exact.value 100, .value 150], ∃ q, x = .value q := by simp
  have hbuilt : (ofColumns [Exact.value 1, .value 3] [.value 100, .value 150]
      [.value 1, .value 1] [.value 1, .value 1]
      [some flatBranch, some flatBranch]).toOption.isSome := by decide +kernel
  obtain ⟨t, ht⟩ := Outcome.exists_ok_of_isSome hbuilt
  exact ⟨hgas, hpressure, t, ht, inverse_of_ofColumns hgas hpressure ht⟩

end BlackOil.LiveOil

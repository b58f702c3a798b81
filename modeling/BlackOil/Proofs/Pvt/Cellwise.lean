import BlackOil.Proofs.Batch
import BlackOil.Proofs.Curve.Search
import BlackOil.Proofs.Grid.Gather
import BlackOil.Proofs.Pvt.Acceptance
import BlackOil.Proofs.Pvt.Fluids

/-!
# Volume factors of many cells

The volume factors of batches are found at one go: the undersaturated cells are picked out,
every branch is evaluated in all of them, and what has been found is put back. The outcome is
nevertheless that of each cell for itself, whatever the others are, if the columns that are
searched do not fall. Columns of a table that is read do not; those of a table that is given as
columns may, and there the place found for a cell depends on the cell before it. So what is said
elsewhere of single cells of the fluids of a deck is said of the answers to questions about them.
-/
namespace BlackOil
variable {α β γ : Type}

namespace Batch

/-- Marked positions of a list are those of its members with a property. -/
theorem compress_map (marked : β → Bool) (f : β → γ) (l : List β) :
    compress (l.map marked) (l.map f) = (l.filter marked).map f := by
  rw [compress, List.zip_map', List.filter_map, List.map_map]
  rfl

/-- New values for the members with a property go where these are. -/
theorem scatter_map (marked : β → Bool) (f g : β → γ) (l : List β) :
    scatter (l.map marked) (l.map f) ((l.filter marked).map g) =
      l.map fun b => if marked b then g b else f b := by
  induction l with
  | nil => rfl
  | cons b l ih =>
    rw [List.map_cons, List.map_cons, List.map_cons]
    cases h : marked b with
    | true =>
      rw [List.filter_cons_of_pos h, List.map_cons, scatter, ih, if_pos rfl]
    | false =>
      rw [List.filter_cons_of_neg (by simp [h]), if_neg Bool.false_ne_true, ← ih]
      rfl

end Batch

variable [Scalar α]

omit [Scalar α] in
/-- Neighbours in a list stand side by side in it. -/
theorem getElem?_neighboursAt (position : Nat) (p q : β) (rest : List β) :
    let k := min position rest.length
    (p :: q :: rest)[k]? = some (neighboursAt position p q rest).1 ∧
      (p :: q :: rest)[k + 1]? = some (neighboursAt position p q rest).2 := by
  induction rest generalizing position p q with
  | nil => simp [neighboursAt]
  | cons r rest ih =>
    cases position with
    | zero => simp [neighboursAt]
    | succ position =>
      rw [List.length_cons, Nat.succ_min_succ]
      exact ih position q r

namespace LiveOil
open Scalar (FiniteArithmetic Sortable)
open Scalar.FiniteArithmetic (IsFinite)
variable (t : LiveOil α)

/-- The columns that are searched do not fall. -/
structure Ordered : Prop where
  dissolvedGas : Ascending (t.records.map OilRecord.dissolvedGas)
  bubblePoints : Ascending (t.records.map OilRecord.bubblePoint)
  branches : ∀ r ∈ t.records, Ascending (r.branch.knots.map Knot.x)

namespace Ordered
variable {t} [Sortable α] (h : t.Ordered)
include h

theorem extendedAll_dissolvedGas (y : OilRecord α → α) (gases : List α) :
    (t.curve OilRecord.dissolvedGas y).extendedAll gases =
      gases.map (t.curve OilRecord.dissolvedGas y).extended := by
  refine Curve.extendedAll_eq_map _ ?_ gases
  rw [knots_curve, List.map_map]
  exact h.dissolvedGas

theorem extendedAll_bubblePoint (y : OilRecord α → α) (pressures : List α) :
    (t.curve OilRecord.bubblePoint y).extendedAll pressures =
      pressures.map (t.curve OilRecord.bubblePoint y).extended := by
  refine Curve.extendedAll_eq_map _ ?_ pressures
  rw [knots_curve, List.map_map]
  exact h.bubblePoints

theorem saturatedGases_eq_map (pressures : List α) :
    t.saturatedGases pressures = pressures.map t.saturatedGas := by
  rw [saturatedGases, h.extendedAll_bubblePoint, List.map_map]
  rfl

theorem saturatedVolumeFactors_eq_map (floor : α) (pressures : List α) :
    t.saturatedVolumeFactors floor pressures = pressures.map (t.saturatedVolumeFactor floor) := by
  rw [saturatedVolumeFactors, h.extendedAll_bubblePoint, List.map_map]
  rfl

/-- The viscosities at several pressures are those at each. -/
theorem viscosities_eq_map (floor : α) (pressures : List α) :
    t.viscosities floor pressures = pressures.map (t.viscosity floor) := by
  rw [viscosities, h.extendedAll_bubblePoint, List.map_map]
  rfl

/-- The two records around an amount of dissolved gas are found by their positions. -/
theorem exists_upper (gas : α) : ∃ k : Nat,
    min (max (rank (t.records.map OilRecord.dissolvedGas) gas : Int) 1)
        ((t.records.map OilRecord.dissolvedGas).toArray.size - 1) = (k + 1 : Nat) ∧
      t.records[k]? = some (bracket OilRecord.dissolvedGas gas t.first t.second t.rest).1 ∧
      t.records[k + 1]? = some (bracket OilRecord.dissolvedGas gas t.first t.second t.rest).2 := by
  obtain ⟨hlower, hupper⟩ := getElem?_neighboursAt
    (rank (t.records.map OilRecord.dissolvedGas) gas - 1) t.first t.second t.rest
  have hbracket := neighboursAt_rank OilRecord.dissolvedGas gas t.first t.second t.rest
    h.dissolvedGas
  refine ⟨_, ?_, hlower.trans (congrArg (some ·.1) hbracket),
    hupper.trans (congrArg (some ·.2) hbracket)⟩
  simp only [List.size_toArray, List.length_map, records, List.length_cons]
  omega

/-- Picking from all branches in all cells gives every cell the factor of its own branches. -/
theorem branchFactors_map (gas offset : β → α) (l : List β) :
    t.branchFactors (l.map gas) (l.map offset) =
      .ok (l.map fun b => t.branchFactor (gas b) (offset b)) := by
  have hplaces : (l.map gas).zip (places (t.records.map OilRecord.dissolvedGas).toArray
      (l.map gas)) =
        l.map fun b => (gas b, rank (t.records.map OilRecord.dissolvedGas) (gas b)) := by
    rw [places_eq_map h.dissolvedGas, List.map_map, List.zip_map']
    rfl
  have hrelative : (t.records.map fun r => (r.branch.extendedAll (l.map offset)).toArray) =
      t.records.map fun r => (l.map fun b => r.branch.extended (offset b)).toArray := by
    refine List.map_congr_left fun r hr => ?_
    rw [Curve.extendedAll_eq_map _ (h.branches r hr), List.map_map]
    rfl
  simp only [branchFactors, hplaces, hrelative]
  refine Outcome.mapM_eq_ok_iff.mpr (List.ext_getElem? fun i => ?_)
  simp only [List.getElem?_map, List.getElem?_zipIdx, Option.map_map]
  cases hb : l[i]? with
  | none => rfl
  | some b =>
    obtain ⟨k, hupper, hl, hu⟩ := h.exists_upper (gas b)
    have hlower : ((k + 1 : Nat) : Int) - 1 = k := by omega
    have hgas : ∀ {n : Nat} {r : OilRecord α}, t.records[n]? = some r →
        entryAt (t.records.map OilRecord.dissolvedGas).toArray n = .ok r.dissolvedGas :=
      fun hr => entryAt_natCast_eq_ok_iff.mpr (by simp [hr])
    have hrow : ∀ {n : Nat} {r : OilRecord α}, t.records[n]? = some r →
        entryAt (t.records.map fun r : OilRecord α =>
          (l.map fun b => r.branch.extended (offset b)).toArray).toArray n =
            .ok (l.map fun b => r.branch.extended (offset b)).toArray :=
      fun hr => entryAt_natCast_eq_ok_iff.mpr (by simp [hr])
    have hcolumn : ∀ r : OilRecord α,
        entryAt (l.map fun b => r.branch.extended (offset b)).toArray i =
          .ok (r.branch.extended (offset b)) :=
      fun r => entryAt_natCast_eq_ok_iff.mpr (by simp [hb])
    simp only [Option.map_some, Function.comp_apply, Nat.zero_add]
    rw [hupper, hlower]
    simp only [hgas hl, hgas hu, hrow hl, hrow hu, hcolumn, Outcome.ok_bind]
    rfl

theorem undersaturated_map (pressure gas : β → α) (l : List β) :
    t.undersaturated (l.map pressure) (l.map gas) =
      l.map fun b => decide (gas b < t.saturatedGas (pressure b)) := by
  rw [undersaturated, h.saturatedGases_eq_map, List.map_map, List.zipWith_map, List.zipWith_self]
  rfl

theorem undersaturatedProducts_map (floor : α) (pressure gas : β → α) (l : List β) :
    (List.map (Scalar.maximum · floor) <$>
        t.undersaturatedProducts (l.map pressure) (l.map gas)) =
      .ok (l.map fun b => t.undersaturatedVolumeFactor floor (pressure b) (gas b)) := by
  simp only [undersaturatedProducts, LiveOil.bubblePoints, h.extendedAll_dissolvedGas, List.map_map,
    List.zipWith_map, List.zipWith_self, h.branchFactors_map, Outcome.ok_bind]
  exact congrArg Except.ok List.map_map

/-- The volume factors of many cells are those of each cell. -/
theorem volumeFactors_map (floor : α) (pressure gas : β → α) (l : List β) :
    t.volumeFactors floor (l.map pressure) (l.map gas) =
      .ok (l.map fun b => t.volumeFactor floor (pressure b) (gas b)) := by
  simp only [volumeFactors, h.undersaturated_map, h.saturatedVolumeFactors_eq_map,
    List.map_map, Batch.compress_map]
  split
  · have hproducts := h.undersaturatedProducts_map floor pressure gas
      (l.filter fun b => decide (gas b < t.saturatedGas (pressure b)))
    obtain ⟨products, hok, hvalues⟩ := Outcome.map_eq_ok_iff.mp hproducts
    rw [hok, Outcome.ok_bind, hvalues, Batch.scatter_map]
    simp only [decide_eq_true_eq]
    rfl
  · rename_i hnone
    refine congrArg Except.ok (List.map_congr_left fun b hb => ?_)
    have hsaturated : ¬gas b < t.saturatedGas (pressure b) := fun hlt =>
      hnone (List.any_eq_true.mpr ⟨_, List.mem_map_of_mem hb, decide_eq_true hlt⟩)
    exact (if_neg hsaturated).symm

/-- The volume factors of batches are combined entry by entry. -/
theorem volumeFactorBatch_eq_combine (floor : α) (pressure gas : Batch α) :
    t.volumeFactorBatch floor pressure (some gas) =
      Batch.combine (t.volumeFactor floor) pressure gas := by
  rw [Batch.combine_eq_map, volumeFactorBatch]
  cases Batch.combine Prod.mk pressure gas with
  | error fault => rfl
  | ok pairs =>
    rw [Outcome.ok_bind, h.volumeFactors_map]
    rfl

/-- A single cell has the volume factor of its pressure and its dissolved gas. -/
theorem volumeFactorBatch_scalar (floor pressure gas : α) :
    t.volumeFactorBatch floor (.scalar pressure) (some (.scalar gas)) =
      .ok (.scalar (t.volumeFactor floor pressure gas)) := by
  rw [h.volumeFactorBatch_eq_combine]
  rfl

end Ordered

section Built
variable [FiniteArithmetic α] {t} {table : Table α}

theorem ascending_of_checkIncreasing {column : Abscissa} {values : List α}
    (hfinite : ∀ x ∈ values, IsFinite x) (h : checkIncreasing column values = .ok ()) :
    Ascending values :=
  ((checkIncreasing_eq_ok_iff column hfinite).mp h).imp fun hlt =>
    not_precedes_of_le (FiniteArithmetic.lt_iff_le_not_le.mp hlt).1

/-- In a table that is read of finite items the columns do not fall. -/
theorem ordered_of_ofTable (htable : ∀ record ∈ table, Tabular record)
    (ht : ofTable table = .ok t) : t.Ordered := by
  obtain ⟨parts, hparts, hrecords, hgas, hpressure⟩ := exists_parts_of_ofTable ht
  have hread : ReadFrom table parts := hparts
  have hfinite : ∀ r ∈ t.records, IsFinite r.dissolvedGas ∧ IsFinite r.bubblePoint := by
    rw [hrecords]
    rintro r hr
    obtain ⟨⟨part, k⟩, hpart, rfl⟩ := List.mem_map.mp hr
    obtain ⟨record, -, rest, hconsists⟩ :=
      hread.exists_consists htable (List.fst_mem_of_mem_zipIdx hpart)
    exact ⟨hconsists.finite _ (hconsists.record_eq ▸ List.mem_cons_self),
      (hconsists.finite_row List.mem_cons_self).1⟩
  constructor
  case dissolvedGas =>
    exact ascending_of_checkIncreasing
      (List.forall_mem_map.mpr fun r hr => (hfinite r hr).1) hgas
  case bubblePoints =>
    exact ascending_of_checkIncreasing
      (List.forall_mem_map.mpr fun r hr => (hfinite r hr).2) hpressure
  case branches =>
    -- differences of doubles may meet where the pressures do not, but they do not fall
    refine (yields_of_ofTable htable ht fun hx hy hz hlt => not_precedes_of_le ?_).offsets
    exact FiniteArithmetic.sub_le_sub hx hy hz (FiniteArithmetic.lt_iff_le_not_le.mp hlt).1

end Built

/-- The volume factors of all batches that have a common shape have that shape, and each is the
volume factor of the cell with the pressure and the dissolved gas in its place. -/
def EvaluatesCellwise (floor : α) : Prop :=
  ∀ (pressure gas : Batch α) (shape : List Nat), pressure.Full → gas.Full →
    Batch.common? pressure.shape gas.shape = some shape →
      ∃ factors, t.volumeFactorBatch floor pressure (some gas) = .ok factors ∧
        factors.shape = shape ∧ factors.Full ∧
        ∀ index, (Batch.position shape index).isSome → ∃ p rs b,
          pressure.at? (Batch.sourceIndex pressure.shape index) = some p ∧
          gas.at? (Batch.sourceIndex gas.shape index) = some rs ∧
          t.volumeFactorBatch floor (.scalar p) (some (.scalar rs)) = .ok (.scalar b) ∧
          factors.at? index = some b

theorem Ordered.evaluatesCellwise [Sortable α] {t : LiveOil α} (h : t.Ordered) (floor : α) :
    t.EvaluatesCellwise floor := by
  intro pressure gas shape hpressure hgas hshape
  obtain ⟨factors, hfactors, hfshape, hfull, hentries⟩ :=
    Batch.exists_combine (t.volumeFactor floor) hpressure hgas hshape
  refine ⟨factors, (h.volumeFactorBatch_eq_combine floor pressure gas).trans hfactors, hfshape,
    hfull, fun index hindex => ?_⟩
  obtain ⟨p, rs, hp, hrs, hentry⟩ := hentries index hindex
  exact ⟨p, rs, _, hp, hrs, h.volumeFactorBatch_scalar floor p rs, hentry⟩

/-- Volume factors are found cell by cell in every table whose columns do not fall, as in all
that are read of finite items. -/
theorem volumeFactorBatch_cellwise [Sortable α] [FiniteArithmetic α] (floor : α) :
    (∀ t : LiveOil α, t.Ordered → t.EvaluatesCellwise floor) ∧
      ∀ (table : Table α) (t : LiveOil α), (∀ record ∈ table, Tabular record) →
        ofTable table = .ok t → t.EvaluatesCellwise floor :=
  ⟨fun _ h => h.evaluatesCellwise floor,
    fun _ _ htable ht => (ordered_of_ofTable htable ht).evaluatesCellwise floor⟩

/-- Two records with a branch each. -/
def branchedRows : Table Float :=
  [[0.0, 128.0, 1.0, 1.0e-3, 256.0, 0.75, 2.0e-3], [64.0, 256.0, 1.5, 8.0e-4, 384.0, 0.75, 1.0e-3]]

def pressureColumn : Batch Float := ⟨[2, 1], [192.0, 320.0]⟩

def gasRow : Batch Float := ⟨[3], [0.0, 32.0, 64.0]⟩

/-- A column of pressures meets a row of dissolved gas; some of their cells are undersaturated. -/
theorem volumeFactorBatch_cellwise_column :
    pressureColumn.Full ∧ gasRow.Full ∧
    Batch.common? pressureColumn.shape gasRow.shape = some [2, 3] ∧
    ∃ t, ofTable branchedRows = .ok t ∧ t.Ordered ∧
      t.volumeFactorBatch 1.0e-2 pressureColumn (some gasRow) =
        .ok ⟨[2, 3], [0.875, 1.25, 1.25, 0.625, 0.78125, 1.125]⟩ ∧
      t.volumeFactorBatch 1.0e-2 (.scalar 192.0) (some (.scalar 0.0)) = .ok (.scalar 0.875) ∧
      t.volumeFactorBatch 1.0e-2 (.scalar 320.0) (some (.scalar 32.0)) =
        .ok (.scalar 0.78125) := by
  have hfinite : ∀ record ∈ branchedRows, ∀ x ∈ record, x.isFinite ∨ x.isNaN := by decide +kernel
  have hfactors : (ofTable branchedRows).toOption.any fun t =>
      (t.volumeFactorBatch 1.0e-2 pressureColumn (some gasRow)).toOption =
        some ⟨[2, 3], [0.875, 1.25, 1.25, 0.625, 0.78125, 1.125]⟩ := by decide +kernel
  obtain ⟨t, ht, hfactors⟩ := (Option.any_eq_true _ _).mp hfactors
  have ht := Outcome.toOption_eq_some_iff.mp ht
  have hfactors := Outcome.toOption_eq_some_iff.mp (of_decide_eq_true hfactors)
  have hordered := ordered_of_ofTable hfinite ht
  obtain ⟨hcells, hbuilt⟩ := volumeFactorBatch_cellwise (1.0e-2 : Float)
  obtain ⟨factors, hok, -, -, hentries⟩ :=
    hcells t hordered pressureColumn gasRow [2, 3] rfl rfl rfl
  obtain ⟨factors', hok', -, -, hentries'⟩ :=
    hbuilt branchedRows t hfinite ht pressureColumn gasRow [2, 3] rfl rfl rfl
  obtain ⟨p, rs, b, hp, hrs, hb, hentry⟩ := hentries [0, 0] rfl
  obtain ⟨p', rs', b', hp', hrs', hb', hentry'⟩ := hentries' [1, 1] rfl
  cases hp
  cases hrs
  cases hp'
  cases hrs'
  cases hok.symm.trans hfactors
  cases hok'.symm.trans hfactors
  cases hentry
  cases hentry'
  exact ⟨rfl, rfl, rfl, t, ht, hordered, hfactors, hb, hb'⟩

/-- A branch whose offsets fall in one place. -/
def fallingBranch : Curve Float :=
  ⟨⟨0.0, 1.0⟩, [⟨8.0, 0.875⟩, ⟨72.0, 0.75⟩, ⟨16.0, 0.5⟩, ⟨32.0, 0.25⟩, ⟨40.0, 0.125⟩]⟩

/-- A table with such a branch is accepted, and what a cell has then depends on the other cells. -/
theorem not_forall_evaluatesCellwise :
    ¬∀ (gases pressures volumeFactors viscosities : List Float)
      (branches : List (Option (Curve Float))) (t : LiveOil Float) (floor : Float),
      ofColumns gases pressures volumeFactors viscosities branches = .ok t →
        t.EvaluatesCellwise floor := by
  intro h
  have hanswers : (ofColumns [0.0, 50.0] [100.0, 200.0] [1.0, 1.5] [1.0e-3, 1.0e-3]
      [some fallingBranch, some flatBranch]).toOption.any fun t =>
        (t.volumeFactorBatch 1.0e-12 (.ofList [124.0, 120.0])
          (some (.ofList [0.0, 0.0]))).toOption = some (.ofList [0.375, 0.8515625]) &&
        (t.volumeFactorBatch 1.0e-12 (.scalar 120.0) (some (.scalar 0.0))).toOption =
          some (.scalar 0.4375) := by decide +kernel
  obtain ⟨t, ht, hanswers⟩ := (Option.any_eq_true _ _).mp hanswers
  rw [Bool.and_eq_true_iff, decide_eq_true_iff, decide_eq_true_iff] at hanswers
  obtain ⟨factors, hok, -, -, hentries⟩ := h _ _ _ _ _ t 1.0e-12
    (Outcome.toOption_eq_some_iff.mp ht) (.ofList [124.0, 120.0]) (.ofList [0.0, 0.0]) [2] rfl rfl rfl
  obtain ⟨p, rs, b, hp, hrs, hb, hentry⟩ := hentries [1] rfl
  cases hp
  cases hrs
  cases hok.symm.trans (Outcome.toOption_eq_some_iff.mp hanswers.1)
  have hscalar := hb.symm.trans (Outcome.toOption_eq_some_iff.mp hanswers.2)
  cases hentry
  have hne : (Batch.scalar 0.8515625 : Batch Float) ≠ .scalar 0.4375 := by decide +kernel
  exact hne (Except.ok.inj hscalar)

end LiveOil

namespace FluidSystem
open Scalar (FiniteArithmetic Sortable)

/-- The columns of the fluids of a deck do not fall. So their answers are those of single cells. -/
theorem IsOfDeck.ascending {f : FluidSystem Exact} {deck : Deck Exact} (h : f.IsOfDeck deck) :
    f.oil.Ordered ∧ Ascending (f.gas.rows.map GasRow.pressure) := by
  obtain ⟨table, -, hoil⟩ := h.oil
  obtain ⟨_, -, hgas⟩ := h.gas
  refine ⟨LiveOil.ordered_of_ofTable (fun record _ => LiveOil.tabular_exact record) hoil, ?_⟩
  refine List.Pairwise.imp (fun hlt => ?_)
    (List.pairwise_map.mpr (DryGas.strict_of_ofTable hgas).increasing)
  exact not_precedes_of_le (FiniteArithmetic.lt_iff_le_not_le.mp hlt).1

variable [Sortable α] {f : FluidSystem α} (hoil : f.oil.Ordered)
  (hgas : Ascending (f.gas.rows.map GasRow.pressure))
include hoil hgas

/-- A fluid system whose columns do not fall answers for a cell what is found for the cell alone. -/
theorem volumeFactorBatch_scalar (floor : α) (phase : Phase) (pressure : α) (gas : Option α) :
    f.volumeFactorBatch floor phase (.scalar pressure) (gas.map .scalar) =
      .ok (.scalar (f.volumeFactor floor phase pressure gas)) := by
  cases phase with
  | oil =>
    cases gas with
    | none =>
      change Except.ok (Batch.mapAll _ _) = _
      rw [Batch.mapAll, hoil.saturatedVolumeFactors_eq_map]
      rfl
    | some gas => exact hoil.volumeFactorBatch_scalar floor pressure gas
  | water => rfl
  | gas =>
    have hknots : Ascending ((f.gas.curve GasRow.volumeFactor).knots.map Knot.x) := by
      rw [DryGas.knots_curve, List.map_map]
      exact hgas
    change Except.ok (Batch.mapAll _ _) = _
    rw [Batch.mapAll, DryGas.volumeFactors, Curve.extendedAll_eq_map _ hknots]
    rfl

/-- Only a zero volume factor has no density. -/
theorem densityBatch_scalar {floor : α} {phase : Phase} {pressure : α} {gas : Option α}
    (hfactor : (f.volumeFactor floor phase pressure gas == 0.0) = false) :
    f.densityBatch floor phase (.scalar pressure) (gas.map .scalar) =
      .ok (.scalar (f.density floor phase pressure gas)) := by
  rw [densityBatch, volumeFactorBatch_scalar hoil hgas, Outcome.ok_bind]
  simp only [Batch.scalar, List.any_cons, List.any_nil, hfactor]
  rfl

end FluidSystem
end BlackOil

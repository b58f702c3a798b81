import BlackOil.Proofs.Pvt.Table
import BlackOil.Proofs.Scalar.Difference

/-!
# Accepted tables of live oil

A table of live oil is accepted exactly if it is well formed: it has two records or more, each is
the dissolved gas and then rows of three with increasing pressures, and the dissolved gas and the
first pressures increase from record to record. What is made of it has one branch for each
record, and every branch starts at the bubble point with the factor one. Over rational numbers the
offsets of a branch increase. Those of doubles are rounded and may meet.
-/
namespace BlackOil

namespace LiveOil
open Scalar (FiniteArithmetic)
open Scalar.FiniteArithmetic (IsFinite)
variable {α : Type} [Scalar α]

section WellFormed

/-- A record as it should be. Its rows have their pressures at the items 1, 4, 7 and so on. -/
structure WellFormedRecord (record : Record α) : Prop where
  size : ∃ rows, 0 < rows ∧ record.length = 3 * rows + 1
  defined : ∀ x ∈ record, Scalar.isUndefined x = false
  pressures : ∀ j k p q, j < k → record[3 * j + 1]? = some p → record[3 * k + 1]? = some q → p < q

/-- An item increases from record to record. -/
def ItemIncreases (item : Nat) (table : Table α) : Prop :=
  table.Pairwise fun r s => ∀ a b, r[item]? = some a → s[item]? = some b → a < b

/-- A table as it should be. -/
structure WellFormed (table : Table α) : Prop where
  enough : 2 ≤ table.length
  records : ∀ record ∈ table, WellFormedRecord record
  dissolvedGas : ItemIncreases 0 table
  bubblePoints : ItemIncreases 1 table

/-- The oil record keeps the saturated state of a record of a table, and all its rows as the
branch if it has more than one. -/
structure Keeps (r : OilRecord α) (record : Record α) : Prop where
  saturated : record.take 4 = [r.dissolvedGas, r.bubblePoint, r.volumeFactor, r.viscosity]
  branch : 4 < record.length → 3 * r.branch.knots.length + 1 = record.length ∧
    ∀ j p bo, record[3 * j + 1]? = some p → record[3 * j + 2]? = some bo →
      r.branch.knots[j]? = some ⟨p - r.bubblePoint, bo / r.volumeFactor⟩

/-- What a table yields. Every branch starts at the bubble point, with the factor one if no record
with a branch has the volume factor zero there. -/
structure Yields (order : α → α → Prop) (table : Table α) (t : LiveOil α) : Prop where
  records : List.Forall₂ Keeps t.records table
  first_offset : ∀ r ∈ t.records, r.branch.first.x = 0.0
  later_offset : ∀ r ∈ t.records, ∀ knot ∈ r.branch.rest, 0.0 < knot.x
  offsets : ∀ r ∈ t.records, (r.branch.knots.map Knot.x).Pairwise order
  first_factor : (∀ record ∈ table, 4 < record.length → ∀ bo : α, record[2]? = some bo →
      (bo == 0.0) = false) → ∀ r ∈ t.records, r.branch.first.y = 1.0

end WellFormed

section Items

omit [Scalar α] in
theorem length_flatMap_values (rows : List (Row α)) :
    (rows.flatMap Row.values).length = 3 * rows.length := by
  induction rows with
  | nil => rfl
  | cons row rows ih =>
    rw [List.flatMap_cons, List.length_append, ih, List.length_cons]
    change 3 + _ = _
    omega

omit [Scalar α] in
theorem getElem?_pressure (rs : α) (rows : List (Row α)) (j : Nat) :
    (rs :: rows.flatMap Row.values)[3 * j + 1]? = rows[j]?.map Prod.fst := by
  rw [List.getElem?_cons_succ]
  induction rows generalizing j with
  | nil => simp
  | cons row rows ih =>
    cases j with
    | zero => rfl
    | succ j => exact ih j

omit [Scalar α] in
theorem getElem?_volumeFactor (rs : α) (rows : List (Row α)) (j : Nat) :
    (rs :: rows.flatMap Row.values)[3 * j + 2]? = rows[j]?.map fun row => row.2.1 := by
  rw [List.getElem?_cons_succ]
  induction rows generalizing j with
  | nil => simp
  | cons row rows ih =>
    cases j with
    | zero => rfl
    | succ j => exact ih j

end Items

section Records
variable [FiniteArithmetic α] {record : Record α} {number : Nat} {values : List α}

/-- Of finite values a column accepts those that increase. -/
theorem checkIncreasing_eq_ok_iff (column : Abscissa) (h : ∀ x ∈ values, IsFinite x) :
    checkIncreasing column values = .ok () ↔ values.Pairwise (· < ·) := by
  have hstep : ∀ a ∈ values, ∀ b ∈ values, ¬b - a ≤ 0.0 ↔ a < b := by
    intro a ha b hb
    rw [FiniteArithmetic.sub_nonpos_iff (h a ha) (h b hb)]
    constructor
    · exact (Scalar.Lawful.lt_or_le (FiniteArithmetic.defined_of_finite (h a ha))
        (FiniteArithmetic.defined_of_finite (h b hb))).resolve_right
    · exact fun hlt => (FiniteArithmetic.lt_iff_le_not_le.mp hlt).2
  have hsteps : checkIncreasing column values = .ok () ↔
      ∀ d ∈ Scalar.steps values, ¬d ≤ 0.0 := by
    unfold checkIncreasing
    split <;> simp_all
  rw [hsteps, Scalar.forall_mem_steps_iff, ← List.isChain_iff_pairwise]
  exact List.IsChain.iff_of_mem_imp fun a b ha hb => hstep a ha b hb

omit [FiniteArithmetic α] in
theorem pressures_iff (rs : α) (rows : List (Row α)) :
    (∀ j k p q, j < k → (rs :: rows.flatMap Row.values)[3 * j + 1]? = some p →
      (rs :: rows.flatMap Row.values)[3 * k + 1]? = some q → p < q) ↔
      (rows.map Prod.fst).Pairwise (· < ·) := by
  simp only [getElem?_pressure, ← List.getElem?_map, List.pairwise_iff_getElem]
  constructor
  · exact fun h j k hj hk hjk =>
      h j k _ _ hjk (List.getElem?_eq_getElem hj) (List.getElem?_eq_getElem hk)
  · intro h j k p q hjk hp hq
    obtain ⟨hj, rfl⟩ := List.getElem?_eq_some_iff.mp hp
    obtain ⟨hk, rfl⟩ := List.getElem?_eq_some_iff.mp hq
    exact h j k hj hk hjk

omit [Scalar α] [FiniteArithmetic α] in
/-- What has the size of a record is the dissolved gas and rows of three. -/
theorem exists_rows_of_length {rows : Nat} (hrows : 0 < rows) (h : record.length = 3 * rows + 1) :
    ∃ rs first rest, record = rs :: (first :: rest).flatMap Row.values := by
  match record with
  | rs :: items =>
    rw [List.length_cons] at h
    have hitems := flatMap_rowsOfThree (l := items) (by omega)
    cases hsplit : rowsOfThree items with
    | nil =>
      rw [hsplit] at hitems
      subst hitems
      simp at h
      omega
    | cons first rest =>
      rw [hsplit] at hitems
      exact ⟨rs, first, rest, by rw [hitems]⟩

/-- What is read of a record of finite items. -/
structure Consists (record : Record α) (part : Part α) (rest : List (Row α)) : Prop where
  record_eq : record = part.1 :: (part.2.1 :: rest).flatMap Row.values
  finite : ∀ x ∈ record, IsFinite x
  increasing : ((part.2.1 :: rest).map Prod.fst).Pairwise (· < ·)
  branch_eq : part.2.2 = branchOf part.2.1 rest

omit [Scalar α] [FiniteArithmetic α] in
theorem mem_record_of_mem {rs x : α} {rows : List (Row α)} {row : Row α} (hrow : row ∈ rows)
    (hx : x ∈ row.values) : x ∈ rs :: rows.flatMap Row.values :=
  List.mem_cons_of_mem _ (List.mem_flatMap.mpr ⟨row, hrow, hx⟩)

omit [FiniteArithmetic α] in
theorem not_any_isUndefined_iff :
    ¬values.any Scalar.isUndefined ↔ ∀ x ∈ values, Scalar.isUndefined x = false := by
  simp only [Bool.not_eq_true, List.any_eq_false]

omit [Scalar α] [FiniteArithmetic α] in
theorem forall_mem_pressures {P : α → Prop} {rs : α} {rows : List (Row α)}
    (h : ∀ x ∈ rs :: rows.flatMap Row.values, P x) : ∀ p ∈ rows.map Prod.fst, P p := by
  intro p hp
  obtain ⟨row, hrow, rfl⟩ := List.mem_map.mp hp
  exact h row.1 (mem_record_of_mem hrow (by simp [Row.values]))

/-- All items are finite or undefined. -/
def Tabular (record : Record α) : Prop :=
  ∀ x ∈ record, IsFinite x ∨ Scalar.isUndefined x

theorem Tabular.finite (h : Tabular record)
    (hdefined : ∀ x ∈ record, Scalar.isUndefined x = false) : ∀ x ∈ record, IsFinite x := by
  intro x hx
  refine (h x hx).resolve_right ?_
  rw [hdefined x hx]
  exact Bool.false_ne_true

/-- An exact scalar is a number or undefined. -/
theorem tabular_exact (record : Record Exact) : Tabular record := by
  intro x _
  cases hx : Scalar.isUndefined x with
  | false => exact .inl hx
  | true => exact .inr rfl

theorem exists_consists_of_readRecord {part : Part α} (h : Tabular record)
    (hread : readRecord number record = .ok part) : ∃ rest, Consists record part rest := by
  obtain ⟨rs, first, branch⟩ := part
  obtain ⟨rest, rfl, hdefined, hcheck, hbranch⟩ := readRecord_eq_ok hread
  have hfinite := h.finite (not_any_isUndefined_iff.mp hdefined)
  exact ⟨rest, rfl, hfinite,
    (checkIncreasing_eq_ok_iff _ (forall_mem_pressures hfinite)).mp hcheck, hbranch⟩

/-- A record is read exactly if it is well formed. -/
theorem exists_readRecord_iff (h : Tabular record) :
    (∃ part, readRecord number record = .ok part) ↔ WellFormedRecord record := by
  constructor
  · rintro ⟨⟨rs, first, branch⟩, hread⟩
    obtain ⟨rest, rfl, hfinite, hincreasing, -⟩ := exists_consists_of_readRecord h hread
    constructor
    case size =>
      refine ⟨rest.length + 1, Nat.succ_pos _, ?_⟩
      rw [List.length_cons, length_flatMap_values, List.length_cons]
    case defined => exact fun x hx => FiniteArithmetic.defined_of_finite (hfinite x hx)
    case pressures => exact (pressures_iff rs (first :: rest)).mpr hincreasing
  · intro hrecord
    obtain ⟨rows, hrows, hlength⟩ := hrecord.size
    obtain ⟨rs, first, rest, rfl⟩ := exists_rows_of_length hrows hlength
    have hfinite := h.finite hrecord.defined
    have hcheck := (checkIncreasing_eq_ok_iff (.branch number)
      (forall_mem_pressures hfinite)).mpr ((pressures_iff rs (first :: rest)).mp hrecord.pressures)
    refine ⟨(rs, first, branchOf first rest), ?_⟩
    have hdefined := not_any_isUndefined_iff.mpr hrecord.defined
    have hrest := rowsOfThree_flatMap (first :: rest)
    rw [readRecord, if_neg (by omega), if_neg hdefined]
    simp only [hrest, hcheck]
    rfl

end Records

section Tables
variable {table : Table α} {parts : List (Part α)}

/-- Columns of one length, at least two, with increasing abscissae make live oil. -/
theorem exists_ofColumns (dissolvedGas bubblePoints volumeFactors viscosities : List α)
    (curves : List (Curve α)) (hcount : 2 ≤ dissolvedGas.length)
    (hcurves : curves.length = dissolvedGas.length)
    (hlengths : ∀ column ∈ [bubblePoints, volumeFactors, viscosities],
      column.length = dissolvedGas.length)
    (hgas : checkIncreasing .dissolvedGas dissolvedGas = .ok ())
    (hpressure : checkIncreasing .bubblePoints bubblePoints = .ok ()) :
    ∃ t, ofColumns dissolvedGas bubblePoints volumeFactors viscosities (curves.map some) =
      .ok t := by
  have hall : (curves.map some).mapM id = some curves :=
    Outcome.mapM_eq_some_iff.mpr (by rw [List.map_id])
  simp only [List.forall_mem_cons] at hlengths
  obtain ⟨hpb, hbo, hmu, -⟩ := hlengths
  simp only [ofColumns, Outcome.check_eq_ok_iff, Outcome.ok_bind, hgas, hpressure, hall, pure_bind]
  have hlength : 2 ≤ (((dissolvedGas.zip bubblePoints).zip (volumeFactors.zip viscosities)).zip
      curves).length := by
    simp only [List.length_zip]
    omega
  generalize List.zip _ curves = entries at *
  rcases entries with _ | ⟨first, _ | ⟨second, rest⟩⟩
  · simp at hlength
  · simp at hlength
  · exact ⟨_, by omega, by simpa using hcurves, by simp [hpb, hbo, hmu], rfl⟩

/-- The parts are read of the records, one of each. -/
def ReadFrom (table : Table α) (parts : List (Part α)) : Prop :=
  (table.zipIdx.map fun (record, k) => readRecord (k + 1) record) = parts.map .ok

theorem ReadFrom.length_eq (h : ReadFrom table parts) : parts.length = table.length := by
  simpa using (congrArg List.length h).symm

/-- The oil is made of the parts that are read. -/
theorem exists_ofTable_iff : (∃ t, ofTable table = .ok t) ↔ ∃ parts, ReadFrom table parts ∧
    2 ≤ parts.length ∧ checkIncreasing .dissolvedGas (parts.map fun part => part.1) = .ok () ∧
      checkIncreasing .bubblePoints (parts.map fun part => part.2.1.1) = .ok () := by
  constructor
  · rintro ⟨t, ht⟩
    obtain ⟨parts, hparts, hrecords, hgas, hpressure⟩ := exists_parts_of_ofTable ht
    rw [hrecords, map_map_toRecord (g := fun part => part.1) fun _ => rfl] at hgas
    rw [hrecords, map_map_toRecord (g := fun part => part.2.1.1) fun _ => rfl] at hpressure
    refine ⟨parts, hparts, ?_, hgas, hpressure⟩
    have hlength := congrArg List.length hrecords
    rw [List.length_map, List.length_zipIdx] at hlength
    rw [← hlength, records]
    simp
  · rintro ⟨parts, hparts, hcount, hgas, hpressure⟩
    obtain ⟨t, ht⟩ := exists_ofColumns (parts.map fun part => part.1)
      (parts.map fun part => part.2.1.1) (parts.map fun part => part.2.1.2.1)
      (parts.map fun part => part.2.1.2.2) (fillBranches (parts.map fun part => part.2.2))
      (by simpa using hcount) (by simp [fillBranches_eq]) (by simp) hgas hpressure
    refine ⟨t, ?_⟩
    simp only [ofTable, Outcome.bind_eq_ok_iff, Outcome.mapM_eq_ok_iff]
    refine ⟨parts, hparts, ?_⟩
    simpa only [List.map_map, Function.comp_def] using ht

theorem itemIncreases_iff {item : Nat} {f : Part α → α}
    (h : List.Forall₂ (fun part record => record[item]? = some (f part)) parts table) :
    ItemIncreases item table ↔ (parts.map f).Pairwise (· < ·) := by
  have hitems : table.map (·[item]?) = (parts.map f).map some := by
    induction h with
    | nil => rfl
    | cons hitem _ ih => rw [List.map_cons, hitem, ih, List.map_cons, List.map_cons]
  have hpairs : ItemIncreases item table ↔ (table.map (·[item]?)).Pairwise fun o o' =>
      ∀ a b : α, o = some a → o' = some b → a < b := by
    rw [List.pairwise_map, ItemIncreases]
  rw [hpairs, hitems, List.pairwise_map]
  simp

end Tables

section Acceptance
variable [FiniteArithmetic α] {table : Table α} {parts : List (Part α)}
  (htable : ∀ record ∈ table, Tabular record)
include htable

/-- Each part consists of the items of the record in its place. -/
theorem ReadFrom.forall₂_consists (h : ReadFrom table parts) :
    List.Forall₂ (fun part record => ∃ rest, Consists record part rest) parts table := by
  refine List.forall₂_iff_get.mpr ⟨h.length_eq, fun i hi hi' => ?_⟩
  have hread : readRecord (i + 1) (table.get ⟨i, hi'⟩) = .ok (parts.get ⟨i, hi⟩) := by
    simpa [hi, hi'] using congrArg (·[i]?) h
  exact exists_consists_of_readRecord (htable _ (List.get_mem _ _)) hread

theorem ReadFrom.exists_consists (h : ReadFrom table parts) {part : Part α} (hpart : part ∈ parts) :
    ∃ record ∈ table, ∃ rest, Consists record part rest := by
  obtain ⟨⟨record, k⟩, hrecord, hread⟩ := Outcome.exists_of_mem_of_map_eq h hpart
  have hmem := List.fst_mem_of_mem_zipIdx hrecord
  exact ⟨record, hmem, exists_consists_of_readRecord (htable record hmem) hread⟩

/-- A column of the parts is accepted exactly if the item it was read of increases. -/
theorem ReadFrom.checkIncreasing_iff (h : ReadFrom table parts) (column : Abscissa) {item : Nat}
    {f : Part α → α} (hf : ∀ (part : Part α) (rest : List (Row α)),
      (part.1 :: (part.2.1 :: rest).flatMap Row.values)[item]? = some (f part)) :
    checkIncreasing column (parts.map f) = .ok () ↔ ItemIncreases item table := by
  have hitem : ∀ {record part rest}, Consists record part rest → record[item]? = some (f part) :=
    fun hconsists => hconsists.record_eq ▸ hf _ _
  rw [itemIncreases_iff ((h.forall₂_consists htable).imp fun _ _ ⟨_, hconsists⟩ => hitem hconsists)]
  refine checkIncreasing_eq_ok_iff _ fun x hx => ?_
  obtain ⟨part, hpart, rfl⟩ := List.mem_map.mp hx
  obtain ⟨record, -, rest, hconsists⟩ := h.exists_consists htable hpart
  exact hconsists.finite _ (List.mem_of_getElem? (hitem hconsists))

/-- A table is accepted exactly if it is well formed. -/
theorem exists_ofTable_iff_wellFormed : (∃ t, ofTable table = .ok t) ↔ WellFormed table := by
  rw [exists_ofTable_iff]
  constructor
  · rintro ⟨parts, hparts, hcount, hgas, hpressure⟩
    constructor
    case enough => exact hparts.length_eq ▸ hcount
    case records =>
      intro record hrecord
      obtain ⟨k, hk⟩ := List.getElem?_of_mem hrecord
      obtain ⟨part, -, hread⟩ :=
        Outcome.exists_mem_of_map_eq hparts (List.mk_mem_zipIdx_iff_getElem?.mpr hk)
      exact (exists_readRecord_iff (htable record hrecord)).mp ⟨part, hread⟩
    case dissolvedGas => exact (hparts.checkIncreasing_iff htable _ fun _ _ => rfl).mp hgas
    case bubblePoints => exact (hparts.checkIncreasing_iff htable _ fun _ _ => rfl).mp hpressure
  · intro h
    obtain ⟨parts, hparts⟩ : ∃ parts, ReadFrom table parts := by
      have hall : ∀ entry ∈ table.zipIdx, ∃ part, readRecord (entry.2 + 1) entry.1 = .ok part :=
        fun entry hentry =>
          have hmem := List.fst_mem_of_mem_zipIdx hentry
          (exists_readRecord_iff (htable _ hmem)).mpr (h.records _ hmem)
      obtain ⟨parts, hparts⟩ := Outcome.exists_mapM_eq_ok_iff.mpr hall
      exact ⟨parts, Outcome.mapM_eq_ok_iff.mp hparts⟩
    exact ⟨parts, hparts, hparts.length_eq ▸ h.enough,
      (hparts.checkIncreasing_iff htable _ fun _ _ => rfl).mpr h.dissolvedGas,
      (hparts.checkIncreasing_iff htable _ fun _ _ => rfl).mpr h.bubblePoints⟩

end Acceptance

section Branches
variable [FiniteArithmetic α] {record : Record α} {part : Part α} {rest : List (Row α)}
  {c : Curve α}

theorem Consists.four_lt_length_iff (h : Consists record part rest) :
    4 < record.length ↔ rest ≠ [] := by
  rw [h.record_eq, List.length_cons, length_flatMap_values, List.length_cons,
    ← List.length_pos_iff]
  omega

theorem Consists.knots_eq (h : Consists record part rest) (hc : part.2.2 = some c) :
    c.knots = (part.2.1 :: rest).map fun row => ⟨row.1 - part.2.1.1, row.2.1 / part.2.1.2.1⟩ :=
  knots_of_branchOf (h.branch_eq.symm.trans hc)

theorem Consists.keeps (h : Consists record part rest) (fill : Nat → Curve α) (k : Nat) :
    Keeps (toRecord fill (part, k)) record := by
  constructor
  case saturated =>
    rw [h.record_eq]
    rfl
  case branch =>
    intro hlong
    obtain ⟨c, hc⟩ : ∃ c, branchOf part.2.1 rest = some c :=
      exists_branchOf_eq_some (h.four_lt_length_iff.mp hlong)
    have hown := h.branch_eq.trans hc
    have hbranch : (toRecord fill (part, k)).branch = c := by
      change part.2.2.getD _ = c
      rw [hown]
      rfl
    rw [hbranch, h.knots_eq hown]
    constructor
    · rw [h.record_eq, List.length_map, List.length_cons (a := part.1), length_flatMap_values]
    · intro j p bo hp hbo
      rw [h.record_eq, getElem?_pressure] at hp
      rw [h.record_eq, getElem?_volumeFactor] at hbo
      obtain ⟨row, hrow, rfl⟩ := Option.map_eq_some_iff.mp hp
      rw [hrow] at hbo
      cases hbo
      rw [List.getElem?_map, hrow]
      rfl

theorem Consists.first_eq (h : Consists record part rest) (hc : part.2.2 = some c) :
    c.first = ⟨part.2.1.1 - part.2.1.1, part.2.1.2.1 / part.2.1.2.1⟩ :=
  (List.cons.inj (h.knots_eq hc)).1

theorem Consists.finite_row (h : Consists record part rest) {row : Row α}
    (hrow : row ∈ part.2.1 :: rest) : IsFinite row.1 ∧ IsFinite row.2.1 := by
  have hitem : ∀ x ∈ row.values, IsFinite x := fun x hx =>
    h.finite x (h.record_eq ▸ mem_record_of_mem hrow hx)
  exact ⟨hitem _ (by simp [Row.values]), hitem _ (by simp [Row.values])⟩

theorem Consists.pairwise_offsets (h : Consists record part rest) (hc : part.2.2 = some c)
    {order : α → α → Prop}
    (horder : ∀ {x y z : α}, IsFinite x → IsFinite y → IsFinite z → x < y →
      order (x - z) (y - z)) : (c.knots.map Knot.x).Pairwise order := by
  rw [h.knots_eq hc, List.map_map, List.pairwise_map]
  refine (List.pairwise_map.mp h.increasing).imp_of_mem fun hrow hrow' hlt => ?_
  exact horder (h.finite_row hrow).1 (h.finite_row hrow').1 (h.finite_row List.mem_cons_self).1 hlt

theorem Consists.later_offset (h : Consists record part rest) (hc : part.2.2 = some c)
    {knot : Knot α} (hknot : knot ∈ c.rest) : 0.0 < knot.x := by
  have hrest := (List.cons.inj (h.knots_eq hc)).2
  rw [hrest] at hknot
  obtain ⟨row, hrow, rfl⟩ := List.mem_map.mp hknot
  have hlt := (List.pairwise_cons.mp h.increasing).1 row.1 (List.mem_map_of_mem hrow)
  exact FiniteArithmetic.sub_pos (h.finite_row List.mem_cons_self).1
    (h.finite_row (List.mem_cons_of_mem _ hrow)).1 hlt

end Branches

section Yields
variable [FiniteArithmetic α] {table : Table α} {t : LiveOil α}
  (htable : ∀ record ∈ table, Tabular record) (ht : ofTable table = .ok t)
include htable ht

/-- Every branch is flat or was read of a record. -/
theorem branch_cases {r : OilRecord α} (hr : r ∈ t.records) : r.branch = flatBranch ∨
    ∃ record ∈ table, ∃ part rest, Consists record part rest ∧ part.2.2 = some r.branch := by
  obtain ⟨parts, hparts, hrecords, -, -⟩ := exists_parts_of_ofTable ht
  rw [hrecords] at hr
  obtain ⟨⟨part, k⟩, hpart, rfl⟩ := List.mem_map.mp hr
  refine (branch_toRecord (List.fst_mem_of_mem_zipIdx hpart) k).imp_right ?_
  rintro ⟨other, hother, hown⟩
  have hread : ReadFrom table parts := hparts
  obtain ⟨record, hrecord, rest, hconsists⟩ := hread.exists_consists htable hother
  exact ⟨record, hrecord, other, rest, hconsists, hown⟩

/-- What an accepted table yields, in whatever order differences keep. -/
theorem yields_of_ofTable {order : α → α → Prop}
    (horder : ∀ {x y z : α}, IsFinite x → IsFinite y → IsFinite z → x < y →
      order (x - z) (y - z)) : Yields order table t := by
  constructor
  case records =>
    obtain ⟨parts, hparts, hrecords, -, -⟩ := exists_parts_of_ofTable ht
    have hread : ReadFrom table parts := hparts
    obtain ⟨hlength, hall⟩ := List.forall₂_iff_get.mp (hread.forall₂_consists htable)
    rw [hrecords, List.forall₂_map_left_iff, List.forall₂_iff_get]
    refine ⟨List.length_zipIdx.trans hlength, fun k hk hk' => ?_⟩
    obtain ⟨rest, hconsists⟩ := hall k (List.length_zipIdx ▸ hk) hk'
    simpa using hconsists.keeps (borrowed (parts.map (·.2.2))) k
  case first_offset =>
    intro r hr
    rcases branch_cases htable ht hr with hflat | ⟨record, -, part, rest, hconsists, hc⟩
    · rw [hflat]
      rfl
    · rw [hconsists.first_eq hc]
      exact FiniteArithmetic.sub_self (hconsists.finite_row List.mem_cons_self).1
  case later_offset =>
    intro r hr knot hknot
    rcases branch_cases htable ht hr with hflat | ⟨record, -, part, rest, hconsists, hc⟩
    · rw [hflat] at hknot
      cases hknot
    · exact hconsists.later_offset hc hknot
  case offsets =>
    intro r hr
    rcases branch_cases htable ht hr with hflat | ⟨record, -, part, rest, hconsists, hc⟩
    · rw [hflat]
      exact List.pairwise_singleton _ _
    · exact hconsists.pairwise_offsets hc horder
  case first_factor =>
    intro hnonzero r hr
    rcases branch_cases htable ht hr with hflat | ⟨record, hrecord, part, rest, hconsists, hc⟩
    · rw [hflat]
      rfl
    · rw [hconsists.first_eq hc]
      refine FiniteArithmetic.div_self (hconsists.finite_row List.mem_cons_self).2 ?_
      refine hnonzero record hrecord (hconsists.four_lt_length_iff.mpr ?_) _ ?_
      · rintro rfl
        rw [hconsists.branch_eq] at hc
        cases hc
      · rw [hconsists.record_eq]
        rfl

end Yields

/-- A table of doubles is accepted exactly if it is well formed. Its branches start at the bubble
point with the factor one; the offsets are positive from there on and never decrease. Those of
a table of rational numbers increase. -/
theorem ofTable_accepts_wellFormed (doubles : Table Float) (rationals : Table Exact)
    (h : ∀ record ∈ doubles, ∀ x ∈ record, x.isFinite ∨ x.isNaN) :
    (((∃ t, ofTable doubles = .ok t) ↔ WellFormed doubles) ∧
      ∀ t, ofTable doubles = .ok t → Yields (· ≤ ·) doubles t) ∧
    ((∃ t, ofTable rationals = .ok t) ↔ WellFormed rationals) ∧
      ∀ t, ofTable rationals = .ok t → Yields (· < ·) rationals t := by
  have hrationals : ∀ record ∈ rationals, Tabular record := fun record _ => tabular_exact record
  refine ⟨⟨exists_ofTable_iff_wellFormed h, fun t ht => yields_of_ofTable h ht ?_⟩,
    exists_ofTable_iff_wellFormed hrationals, fun t ht => yields_of_ofTable hrationals ht ?_⟩
  · intro x y z hx hy hz hlt
    exact FiniteArithmetic.sub_le_sub hx hy hz (FiniteArithmetic.lt_iff_le_not_le.mp hlt).1
  · intro x y z hx hy hz hlt
    obtain ⟨a, b, rfl, rfl, hab⟩ := Exact.lt_iff.mp hlt
    obtain ⟨c, rfl⟩ := Exact.isUndefined_eq_false_iff.mp hz
    exact sub_lt_sub_right hab c

/-- A well-formed table two of whose offsets round to one. -/
def meetingRows : Table Float :=
  [[50.0, 10000000.000000002, 1.2, 0.001, 30000000.0, 1.1, 0.0015, 30000000.000000004, 1.0, 0.002],
    [100.0, 40000000.0, 1.4, 0.0005]]

theorem ofTable_accepts_meetingRows : WellFormed meetingRows ∧
    ∃ t, ofTable meetingRows = .ok t ∧ Yields (· ≤ ·) meetingRows t := by
  have hfinite : ∀ record ∈ meetingRows, ∀ x ∈ record, x.isFinite ∨ x.isNaN := by decide +kernel
  obtain ⟨⟨haccepted, hyields⟩, -⟩ := ofTable_accepts_wellFormed meetingRows [] hfinite
  obtain ⟨t, ht⟩ : ∃ t, ofTable meetingRows = .ok t :=
    Outcome.exists_ok_of_isSome (by decide +kernel)
  exact ⟨haccepted.mp ⟨t, ht⟩, t, ht, hyields t ht⟩

/-- The offsets of doubles need not increase. -/
theorem not_forall_offsets_increase : ¬∀ (table : Table Float) (t : LiveOil Float),
    (∀ record ∈ table, ∀ x ∈ record, x.isFinite) → ofTable table = .ok t →
      ∀ r ∈ t.records, (r.branch.knots.map Knot.x).Pairwise (· < ·) := by
  intro h
  obtain ⟨t, ht⟩ : ∃ t, ofTable meetingRows = .ok t :=
    Outcome.exists_ok_of_isSome (by decide +kernel)
  have hoffsets : (ofTable meetingRows).toOption.map (fun t => t.first.branch.knots.map Knot.x) =
      some [0.0, 20000000.0, 20000000.0] := by decide +kernel
  have hincrease := h meetingRows t (by decide +kernel) ht t.first (by simp [records])
  rw [ht] at hoffsets
  have hxs : t.first.branch.knots.map Knot.x = [0.0, 20000000.0, 20000000.0] :=
    Option.some.inj hoffsets
  rw [hxs] at hincrease
  exact absurd hincrease (by decide +kernel)

end LiveOil
end BlackOil

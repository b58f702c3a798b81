import BlackOil.Proofs.Curve.Extended
import BlackOil.Proofs.Outcome
import BlackOil.Pvt.LiveOil

/-!
# Tables of live oil

What a table of rational numbers turns into. Each of its records is the saturated state of
one record of the live oil followed by the rows above the bubble point, and these become
the branch of the record. A record without such rows borrows its branch, so every branch
belongs to some record or is the flat one.
-/
namespace BlackOil

namespace LiveOil

section Rows
variable {α : Type}

def Row.values (row : Row α) : List α := [row.1, row.2.1, row.2.2]

theorem flatMap_rowsOfThree {l : List α} (h : l.length % 3 = 0) :
    (rowsOfThree l).flatMap Row.values = l := by
  fun_induction rowsOfThree l with
  | case1 a b c rest ih =>
    have hrest : rest.length % 3 = 0 := by
      simp only [List.length_cons] at h
      omega
    rw [List.flatMap_cons, ih hrest]
    rfl
  | case2 l hshort =>
    match l, hshort with
    | [], _ => rfl
    | [a], _ => simp at h
    | [a, b], _ => simp at h
    | a :: b :: c :: rest, hshort => exact absurd rfl (hshort a b c rest)

theorem rowsOfThree_flatMap (rows : List (Row α)) :
    rowsOfThree (rows.flatMap Row.values) = rows := by
  induction rows with
  | nil => rfl
  | cons row rows ih => exact congrArg (row :: ·) ih

end Rows

section Records
variable {record : Record Exact} {rs : Exact} {first : Row Exact} {rest : List (Row Exact)}

/-- A row of rational numbers. -/
def Row.IsRational (row : Row Exact) : Prop :=
  ∃ p bo mu : Rat, row = (.value p, .value bo, .value mu)

theorem Row.isRational_of_values {row : Row Exact} (h : ∀ x ∈ row.values, ∃ q, x = Exact.value q) :
    row.IsRational := by
  obtain ⟨p, bo, mu⟩ := row
  obtain ⟨p, rfl⟩ := h p (by simp [values])
  obtain ⟨bo, rfl⟩ := h bo (by simp [values])
  obtain ⟨mu, rfl⟩ := h mu (by simp [values])
  exact ⟨p, bo, mu, rfl⟩

/-- A record of rational numbers: the dissolved gas and then rows of increasing pressure. -/
structure Reads (record : Record Exact) (rs : Exact) (first : Row Exact)
    (rest : List (Row Exact)) : Prop where
  record_eq : record = rs :: (first :: rest).flatMap Row.values
  dissolvedGas : ∃ q, rs = .value q
  rational : ∀ row ∈ first :: rest, row.IsRational
  increasing : (first :: rest).Pairwise fun a b => a.1 < b.1

theorem Reads.rowsOfThree_eq (h : Reads record rs first rest) :
    rowsOfThree record.tail = first :: rest := by
  rw [h.record_eq]
  exact rowsOfThree_flatMap (first :: rest)

theorem pairwise_of_checkIncreasing {column : Abscissa} {values : List Exact} {u : Unit}
    (hvalues : ∀ x ∈ values, ∃ q, x = Exact.value q)
    (h : checkIncreasing column values = .ok u) : values.Pairwise (· < ·) := by
  unfold checkIncreasing at h
  split at h
  · cases h
  · rename_i hsteps
    exact Scalar.pairwise_lt_of_steps hvalues (Bool.not_eq_true _ ▸ hsteps)

/-- A record that is read consists of the dissolved gas and of rows in the order of increasing
pressures, and has no undefined item. -/
theorem readRecord_eq_ok {α : Type} [Scalar α] {number : Nat} {record : Record α} {rs : α}
    {first : Row α} {branch : Option (Curve α)}
    (h : readRecord number record = .ok (rs, first, branch)) :
    ∃ rest, record = rs :: (first :: rest).flatMap Row.values ∧
      ¬record.any Scalar.isUndefined ∧
      checkIncreasing (.branch number) ((first :: rest).map Prod.fst) = .ok () ∧
      branch = branchOf first rest := by
  unfold readRecord at h
  split at h
  · cases h
  · rename_i hsize
    split at h
    · cases h
    · rename_i hdefined
      split at h
      · cases h
      · split at h
        · cases h
        · rename_i rs' values first' rest hrows
          obtain ⟨u, hcheck, h⟩ := Outcome.bind_eq_ok_iff.mp h
          cases h
          rw [List.length_cons, Nat.add_sub_cancel, not_or, not_not] at hsize
          refine ⟨rest, ?_, hdefined, hcheck, rfl⟩
          rw [← hrows, flatMap_rowsOfThree hsize.2]

theorem exists_reads_of_readRecord {number : Nat} {branch : Option (Curve Exact)}
    (h : readRecord number record = .ok (rs, first, branch)) :
    ∃ rest, Reads record rs first rest ∧ branch = branchOf first rest := by
  obtain ⟨rest, hrecord, hdefined, hcheck, hbranch⟩ := readRecord_eq_ok h
  have hvalue : ∀ x ∈ rs :: (first :: rest).flatMap Row.values, ∃ q, x = Exact.value q := by
    rw [← hrecord]
    exact fun _ => Exact.exists_value_of_any hdefined
  have hrational : ∀ row ∈ first :: rest, row.IsRational := fun row hrow =>
    Row.isRational_of_values fun x hx =>
      hvalue x (List.mem_cons_of_mem _ (List.mem_flatMap.mpr ⟨row, hrow, hx⟩))
  have hpressure : ∀ x ∈ (first :: rest).map Prod.fst, ∃ q, x = Exact.value q := by
    intro x hx
    obtain ⟨row, hrow, rfl⟩ := List.mem_map.mp hx
    obtain ⟨p, bo, mu, rfl⟩ := hrational row hrow
    exact ⟨p, rfl⟩
  exact ⟨rest, {
    record_eq := hrecord
    dissolvedGas := hvalue rs List.mem_cons_self
    rational := hrational
    increasing := List.pairwise_map.mp (pairwise_of_checkIncreasing hpressure hcheck) }, hbranch⟩

end Records

section Branches
variable {α : Type} [Scalar α]

theorem knots_of_branchOf {first : Row α} {rest : List (Row α)} {c : Curve α}
    (h : branchOf first rest = some c) :
    c.knots = (first :: rest).map fun row => ⟨row.1 - first.1, row.2.1 / first.2.1⟩ := by
  simp only [branchOf] at h
  split at h
  · cases h
  · cases h
    rfl

theorem exists_branchOf_eq_some {first : Row α} {rest : List (Row α)} (h : rest ≠ []) :
    ∃ c, branchOf first rest = some c := by
  simp only [branchOf, List.isEmpty_iff, if_neg h]
  exact ⟨_, rfl⟩

omit [Scalar α] in
theorem mem_of_nearestBranch {known : List (Nat × Curve α)} {position : Nat} {c : Curve α}
    (h : nearestBranch known position = some c) : ∃ k, (k, c) ∈ known := by
  obtain ⟨⟨k, c⟩, hbest, rfl⟩ := Option.map_eq_some_iff.mp h
  refine ⟨k, ?_⟩
  -- the best entry so far is one of the known ones
  refine List.foldlRecOn (motive := fun best => ∀ e, best = some e → e ∈ known) known _ ?_ ?_ _
    hbest
  · intro e he
    cases he
  · intro best hmem entry hentry e he
    cases best with
    | none => exact Option.some.inj he ▸ hentry
    | some b =>
      simp only at he
      split at he
      · exact Option.some.inj he ▸ hentry
      · exact Option.some.inj he ▸ hmem b rfl

/-- The branch that a record at a position borrows if it has none. -/
def borrowed (branches : List (Option (Curve α))) (position : Nat) : Curve α :=
  (nearestBranch (branches.zipIdx.filterMap fun (branch, k) => branch.map (k, ·)) position).getD
    flatBranch

theorem fillBranches_eq (branches : List (Option (Curve α))) : fillBranches branches =
    branches.zipIdx.map fun (branch, position) => branch.getD (borrowed branches position) := rfl

/-- A borrowed branch is that of another record or flat. -/
theorem borrowed_eq (branches : List (Option (Curve α))) (position : Nat) :
    borrowed branches position = flatBranch ∨ some (borrowed branches position) ∈ branches := by
  unfold borrowed
  generalize hbest : nearestBranch _ position = best
  cases best with
  | none => exact .inl rfl
  | some c =>
    obtain ⟨k, hk⟩ := mem_of_nearestBranch hbest
    obtain ⟨⟨branch, j⟩, hbranch, hmap⟩ := List.mem_filterMap.mp hk
    obtain ⟨c', rfl, hc⟩ := Option.map_eq_some_iff.mp hmap
    cases hc
    exact .inr (List.fst_mem_of_mem_zipIdx hbranch)

/-- What is read of a record: the dissolved gas, the first row and a branch. -/
abbrev Part (α : Type) := α × Row α × Option (Curve α)

omit [Scalar α] in
/-- The record made of a part at a position, with `fill` for a missing branch. -/
def toRecord (fill : Nat → Curve α) : Part α × Nat → OilRecord α
  | ((rs, (pb, bo, mu), branch), position) => ⟨rs, pb, bo, mu, branch.getD (fill position)⟩

omit [Scalar α] in
theorem map_map_toRecord {fill : Nat → Curve α} {f : OilRecord α → α} {g : Part α → α}
    (h : ∀ entry, f (toRecord fill entry) = g entry.1) (parts : List (Part α)) :
    (parts.zipIdx.map (toRecord fill)).map f = parts.map g := by
  have hfst : parts.map g = parts.zipIdx.map (g ∘ Prod.fst) := by
    rw [← List.map_map, List.zipIdx_map_fst]
  rw [List.map_map, hfst]
  exact List.map_congr_left fun entry _ => h entry

/-- The branch of a record is flat or was read of some record. -/
theorem branch_toRecord {parts : List (Part α)} {part : Part α} (h : part ∈ parts) (k : Nat) :
    (toRecord (borrowed (parts.map (·.2.2))) (part, k)).branch = flatBranch ∨
      ∃ other ∈ parts,
        other.2.2 = some (toRecord (borrowed (parts.map (·.2.2))) (part, k)).branch := by
  obtain ⟨rs, first, branch⟩ := part
  cases branch with
  | none => exact (borrowed_eq _ k).imp_right List.mem_map.mp
  | some c => exact .inr ⟨_, h, rfl⟩

theorem ofColumns_eq_ok {dissolvedGas bubblePoints volumeFactors viscosities : List α}
    {branches : List (Option (Curve α))} {t : LiveOil α}
    (h : ofColumns dissolvedGas bubblePoints volumeFactors viscosities branches = .ok t) :
    checkIncreasing .dissolvedGas dissolvedGas = .ok () ∧
      checkIncreasing .bubblePoints bubblePoints = .ok () ∧
      (∀ column ∈ [bubblePoints, volumeFactors, viscosities],
        column.length = dissolvedGas.length) ∧
      ∃ curves, branches = curves.map some ∧ curves.length = dissolvedGas.length ∧
        t.records = (((dissolvedGas.zip bubblePoints).zip (volumeFactors.zip viscosities)).zip
          curves).map fun (((rs, pb), (bo, mu)), c) => OilRecord.mk rs pb bo mu c := by
  simp only [ofColumns, Outcome.check_eq_ok_iff, Outcome.bind_eq_ok_iff] at h
  obtain ⟨-, hcount, ⟨⟩, hgas, ⟨⟩, hpressure, h⟩ := h
  cases hcurves : branches.mapM id with
  | none =>
    rw [hcurves] at h
    cases h
  | some curves =>
    simp only [hcurves, pure_bind, Outcome.check_eq_ok_iff] at h
    obtain ⟨hlengths, h⟩ := h
    have hbranches : branches = curves.map some := by
      rw [Outcome.mapM_eq_some_iff.mp hcurves, List.map_id]
    rw [hbranches, List.length_map, not_not] at hcount
    refine ⟨hgas, hpressure, ?_, curves, hbranches, hcount, ?_⟩
    · simpa using hlengths
    · split at h
      · rename_i hrecords
        cases h
        exact hrecords.symm
      · cases h

theorem exists_parts_of_ofTable {table : Table α} {t : LiveOil α} (h : ofTable table = .ok t) :
    ∃ parts : List (Part α),
      (table.zipIdx.map fun (record, k) => readRecord (k + 1) record) = parts.map .ok ∧
      t.records = parts.zipIdx.map (toRecord (borrowed (parts.map (·.2.2)))) ∧
      checkIncreasing .dissolvedGas (t.records.map OilRecord.dissolvedGas) = .ok () ∧
      checkIncreasing .bubblePoints (t.records.map OilRecord.bubblePoint) = .ok () := by
  simp only [ofTable, Outcome.bind_eq_ok_iff, Outcome.mapM_eq_ok_iff] at h
  obtain ⟨parts, hparts, h⟩ := h
  obtain ⟨hgas, hpressure, -, curves, hcurves, -, hrecords⟩ := ofColumns_eq_ok h
  have hfill : fillBranches (parts.map (·.2.2)) = curves :=
    (List.map_inj_right fun _ _ => Option.some.inj).mp hcurves
  have hall : t.records = parts.zipIdx.map (toRecord (borrowed (parts.map (·.2.2)))) := by
    rw [hrecords, ← hfill, fillBranches_eq]
    refine List.ext_getElem (by simp) fun i hi hi' => ?_
    simp [toRecord]
  refine ⟨parts, hparts, hall, ?_, ?_⟩
  · rw [hall, map_map_toRecord (g := fun part => part.1) fun _ => rfl]
    exact hgas
  · rw [hall, map_map_toRecord (g := fun part => part.2.1.1) fun _ => rfl]
    rw [List.map_map] at hpressure
    exact hpressure

end Branches

theorem knots_curve {α : Type} (t : LiveOil α) (x y : OilRecord α → α) :
    (t.curve x y).knots = t.records.map fun r => ⟨x r, y r⟩ := rfl

/-- The row of the saturated state of a record. -/
def saturatedRow {α : Type} (r : OilRecord α) : Row α :=
  (r.bubblePoint, r.volumeFactor, r.viscosity)

section Tables
variable {record : Record Exact} {rs : Exact} {first : Row Exact} {rest : List (Row Exact)}
  {r : OilRecord Exact}

/-- The oil record holds a record of a table: its saturated state is that of the first row,
and the further rows make its branch where there are any. -/
structure Holds (r : OilRecord Exact) (record : Record Exact) (rest : List (Row Exact)) :
    Prop where
  reads : Reads record r.dissolvedGas (saturatedRow r) rest
  branch : ∀ c, branchOf (saturatedRow r) rest = some c → r.branch = c

/-- A further row is a knot of the branch. -/
theorem Holds.knot_mem (h : Holds r record rest) {row : Row Exact} (hrow : row ∈ rest) :
    ⟨row.1 - r.bubblePoint, row.2.1 / r.volumeFactor⟩ ∈ r.branch.knots := by
  obtain ⟨c, hc⟩ := exists_branchOf_eq_some (List.ne_nil_of_mem hrow)
  rw [h.branch c hc, knots_of_branchOf hc]
  exact List.mem_map.mpr ⟨row, List.mem_cons_of_mem _ hrow, rfl⟩

theorem exists_holds_toRecord {number : Nat} {part : Part Exact}
    (h : readRecord number record = .ok part) (fill : Nat → Curve Exact) (position : Nat) :
    ∃ rest, Holds (toRecord fill (part, position)) record rest := by
  obtain ⟨rs, first, branch⟩ := part
  obtain ⟨rest, hreads, hbranch⟩ := exists_reads_of_readRecord h
  refine ⟨rest, hreads, fun c hc => ?_⟩
  rw [show branch = some c from hbranch.trans hc]
  rfl

/-- The live oil holds the records of a table, ordered by dissolved gas and by bubble point. -/
structure Tabulates (t : LiveOil Exact) (table : Table Exact) : Prop where
  exists_record : ∀ record ∈ table, ∃ r ∈ t.records, ∃ rest, Holds r record rest
  exists_holds : ∀ r ∈ t.records, ∃ record ∈ table, ∃ rest, Holds r record rest
  branch : ∀ r ∈ t.records, r.branch = flatBranch ∨ ∃ record ∈ table, ∃ rs first rest,
    Reads record rs first rest ∧ branchOf first rest = some r.branch
  dissolvedGas : t.records.Pairwise fun r s => r.dissolvedGas < s.dissolvedGas
  bubblePoint : t.records.Pairwise fun r s => r.bubblePoint < s.bubblePoint

theorem tabulates_of_ofTable {table : Table Exact} {t : LiveOil Exact}
    (h : ofTable table = .ok t) : t.Tabulates table := by
  obtain ⟨parts, hparts, hrecords, hgas, hpressure⟩ := exists_parts_of_ofTable h
  have hread : ∀ part ∈ parts, ∃ record ∈ table, ∃ number,
      readRecord number record = .ok part := by
    intro part hpart
    obtain ⟨⟨record, k⟩, hrecord, hnumber⟩ := Outcome.exists_of_mem_of_map_eq hparts hpart
    exact ⟨record, List.fst_mem_of_mem_zipIdx hrecord, k + 1, hnumber⟩
  have hall : ∀ r ∈ t.records, ∃ record ∈ table, ∃ rest, Holds r record rest := by
    intro r hr
    rw [hrecords] at hr
    obtain ⟨⟨part, k⟩, hpart, rfl⟩ := List.mem_map.mp hr
    obtain ⟨record, hrecord, number, hnumber⟩ := hread part (List.fst_mem_of_mem_zipIdx hpart)
    exact ⟨record, hrecord, exists_holds_toRecord hnumber _ k⟩
  constructor
  case exists_record =>
    intro record hrecord
    obtain ⟨k, hk⟩ := List.getElem?_of_mem hrecord
    obtain ⟨part, hpart, hnumber⟩ :=
      Outcome.exists_mem_of_map_eq hparts (List.mk_mem_zipIdx_iff_getElem?.mpr hk)
    obtain ⟨j, hj⟩ := List.getElem?_of_mem hpart
    obtain ⟨rest, hholds⟩ := exists_holds_toRecord hnumber (borrowed (parts.map (·.2.2))) j
    refine ⟨_, ?_, rest, hholds⟩
    rw [hrecords]
    exact List.mem_map_of_mem (List.mk_mem_zipIdx_iff_getElem?.mpr hj)
  case exists_holds => exact hall
  case branch =>
    intro r hr
    rw [hrecords] at hr
    obtain ⟨⟨part, k⟩, hpart, rfl⟩ := List.mem_map.mp hr
    refine (branch_toRecord (List.fst_mem_of_mem_zipIdx hpart) k).imp_right fun hown => ?_
    obtain ⟨⟨rs, first, branch⟩, hother, hown⟩ := hown
    obtain ⟨record, hrecord, number, hnumber⟩ := hread _ hother
    obtain ⟨rest, hreads, hrest⟩ := exists_reads_of_readRecord hnumber
    exact ⟨record, hrecord, rs, first, rest, hreads, hrest.symm.trans hown⟩
  case dissolvedGas =>
    refine List.pairwise_map.mp (pairwise_of_checkIncreasing (fun x hx => ?_) hgas)
    obtain ⟨r, hr, rfl⟩ := List.mem_map.mp hx
    obtain ⟨record, -, rest, hholds⟩ := hall r hr
    exact hholds.reads.dissolvedGas
  case bubblePoint =>
    refine List.pairwise_map.mp (pairwise_of_checkIncreasing (fun x hx => ?_) hpressure)
    obtain ⟨r, hr, rfl⟩ := List.mem_map.mp hx
    obtain ⟨record, -, rest, hholds⟩ := hall r hr
    obtain ⟨p, bo, mu, hrow⟩ := hholds.reads.rational _ List.mem_cons_self
    exact ⟨p, congrArg Prod.fst hrow⟩

theorem strict_flatBranch : (flatBranch : Curve Exact).Strict where
  rational := by
    intro k hk
    obtain rfl := List.mem_singleton.mp hk
    exact ⟨0, 1, by rw [flatBranch, Exact.zero_eq, Exact.one_eq]⟩
  increasing := List.pairwise_singleton _ _

/-- The branch of a record is strict as its pressures increase. -/
theorem Reads.strict_branch {c : Curve Exact} (h : Reads record rs first rest)
    (hne : first.2.1 ≠ .value 0) (hc : branchOf first rest = some c) : c.Strict := by
  have hknots := knots_of_branchOf hc
  obtain ⟨p, bo, mu, rfl⟩ := h.rational first List.mem_cons_self
  have hbo : bo ≠ 0 := fun hzero => hne (congrArg Exact.value hzero)
  constructor
  · intro k hk
    rw [hknots] at hk
    obtain ⟨row, hrow, rfl⟩ := List.mem_map.mp hk
    obtain ⟨p', bo', mu', rfl⟩ := h.rational row hrow
    exact ⟨p' - p, bo' / bo, by rw [Exact.value_sub, Exact.value_div hbo]⟩
  · rw [hknots, List.pairwise_map]
    refine h.increasing.imp fun hlt => ?_
    obtain ⟨a, b, ha, hb, hab⟩ := Exact.lt_iff.mp hlt
    simp only [ha, hb, Exact.value_sub, Exact.value_lt]
    exact sub_lt_sub_right hab p

end Tables
end LiveOil
end BlackOil

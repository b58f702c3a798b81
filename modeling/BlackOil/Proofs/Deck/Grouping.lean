import BlackOil.Deck.Reader
import BlackOil.Proofs.Deck.Units
import Mathlib.Data.List.Basic

/-!
# Grouped records

How the records of a table keyword make up its tables. Live-oil records that follow each
other are one table, which an empty record ends; elsewhere each record that is not empty is
a table of its own. The records keep their length, so that the empty ones are those of the
text.
-/
namespace BlackOil
variable {α : Type}

theorem flatten_splitOnP {β : Type} (p : β → Bool) (l : List β) :
    (l.splitOnP p).flatten = l.filter (!p ·) := by
  induction l with
  | nil => rfl
  | cons b l ih =>
    rw [List.splitOnP_cons_eq_if_modifyHead, List.filter_cons]
    by_cases hb : p b
    · simp [hb, ih]
    · obtain ⟨piece, pieces, hl⟩ := List.exists_cons_of_ne_nil (List.splitOnP_ne_nil p l)
      rw [hl] at ih ⊢
      simp [hb, ← ih]

namespace TableKeyword

/-- The tables that the records of an occurrence make up. -/
def group (keyword : TableKeyword) (records : List (Record α)) : List (Table α) :=
  if keyword = .liveOil then (records.splitOnP List.isEmpty).filter (!·.isEmpty)
  else (records.filter (!·.isEmpty)).map ([·])

theorem flatten_group (keyword : TableKeyword) (records : List (Record α)) :
    (keyword.group records).flatten = records.filter (!·.isEmpty) := by
  unfold group
  split
  · rw [List.flatten_filter_not_isEmpty, flatten_splitOnP]
  · rw [← List.flatMap_def, List.flatMap_singleton']

theorem ne_nil_of_mem_group {keyword : TableKeyword} {records : List (Record α)}
    {table : Table α} (h : table ∈ keyword.group records) :
    table ≠ [] ∧ ∀ record ∈ table, record ≠ [] := by
  constructor
  · unfold group at h
    split at h
    · have hp := (List.mem_filter.mp h).2
      simpa using hp
    · obtain ⟨record, -, rfl⟩ := List.mem_map.mp h
      exact List.cons_ne_nil record []
  · intro record hrecord
    have hmem : record ∈ (keyword.group records).flatten := List.mem_flatten_of_mem h hrecord
    rw [flatten_group, List.mem_filter] at hmem
    simpa using hmem.2

end TableKeyword

variable [Scalar α] {constants : Constants α}

namespace OpenTables

omit [Scalar α] in
theorem endRun_eq (t : OpenTables α) :
    t.endRun = ⟨t.keyword, t.tables ++ [t.run].filter (!·.isEmpty), []⟩ := by
  obtain ⟨keyword, tables, run⟩ := t
  cases run with
  | nil => simp [endRun]
  | cons record run => simp [endRun]

/-- An empty record ends a run. Another one goes on the run, which it ends unless the table
may have several records. -/
theorem add_toArray (t : OpenTables α) (record : Record α) : t.add constants record.toArray =
    if record.isEmpty then t.endRun
    else if t.keyword = .liveOil then
      ⟨t.keyword, t.tables, t.run ++ [t.keyword.toSI constants record]⟩
    else endRun ⟨t.keyword, t.tables, t.run ++ [t.keyword.toSI constants record]⟩ := by
  simp only [add, TableKeyword.isEmpty_toSI]

/-- Takes up records one after the other. -/
def addAll (constants : Constants α) (t : OpenTables α) (records : List (Record α)) :
    OpenTables α :=
  records.foldl (fun t record => t.add constants record.toArray) t

theorem addAll_cons (t : OpenTables α) (record : Record α) (records : List (Record α)) :
    t.addAll constants (record :: records) =
      (t.add constants record.toArray).addAll constants records := rfl

/-- The open run goes in front of the first run of the records. -/
theorem endRun_addAll_liveOil (tables : List (Table α)) (run : Table α)
    (records : List (Record α)) :
    ((OpenTables.mk .liveOil tables run).addAll constants records).endRun.tables = tables ++
      (((records.map (TableKeyword.toSI constants .liveOil)).splitOnP List.isEmpty).modifyHead
        (run ++ ·)).filter (!·.isEmpty) := by
  induction records generalizing tables run with
  | nil =>
    change (endRun ⟨.liveOil, tables, run⟩).tables = tables ++ [run ++ []].filter (!·.isEmpty)
    rw [List.append_nil, endRun_eq]
  | cons record records ih =>
    rw [addAll_cons, add_toArray, List.map_cons, List.splitOnP_cons_eq_if_modifyHead,
      TableKeyword.isEmpty_toSI]
    by_cases hrecord : record.isEmpty
    -- the run is closed, and the rest starts with an empty one
    · have hid : ∀ pieces : List (Table α), pieces.modifyHead ([] ++ ·) = pieces := by
        intro pieces
        cases pieces <;> rfl
      rw [if_pos hrecord, if_pos hrecord, endRun_eq ⟨.liveOil, tables, run⟩, ih, hid,
        List.modifyHead_cons, List.append_nil, List.append_assoc]
      exact congrArg (tables ++ ·) (List.filter_append [run] _).symm
    -- the record moves from the first run of the rest to the open one
    · have happend : (fun rest : Table α => run ++ rest) ∘
            List.cons (TableKeyword.toSI constants .liveOil record) =
          (run ++ [TableKeyword.toSI constants .liveOil record] ++ ·) := by
        funext rest
        exact (List.append_assoc run [_] rest).symm
      rw [if_neg hrecord, if_neg hrecord, if_pos rfl, ih, List.modifyHead_modifyHead, happend]

theorem endRun_addAll_single {keyword : TableKeyword} (hkeyword : keyword ≠ .liveOil)
    (tables : List (Table α)) (records : List (Record α)) :
    ((OpenTables.mk keyword tables []).addAll constants records).endRun.tables = tables ++
      ((records.map (keyword.toSI constants)).filter (!·.isEmpty)).map ([·]) := by
  induction records generalizing tables with
  | nil =>
    change (endRun ⟨keyword, tables, []⟩).tables = tables ++ []
    rw [endRun_eq]
    rfl
  | cons record records ih =>
    rw [addAll_cons, add_toArray, List.map_cons, List.filter_cons, TableKeyword.isEmpty_toSI]
    by_cases hrecord : record.isEmpty
    · rw [if_pos hrecord, endRun_eq ⟨keyword, tables, []⟩, ih]
      simp [hrecord]
    · rw [if_neg hrecord, if_neg hkeyword, endRun_eq ⟨keyword, tables, _⟩, ih]
      simp [hrecord]

/-- Records taken up by a keyword without tables are grouped. -/
theorem endRun_addAll (keyword : TableKeyword) (records : List (Record α)) :
    ((OpenTables.mk keyword [] []).addAll constants records).endRun.tables =
      keyword.group (records.map (keyword.toSI constants)) := by
  unfold TableKeyword.group
  split
  · rename_i h
    subst h
    rw [endRun_addAll_liveOil]
    cases (records.map (TableKeyword.toSI constants .liveOil)).splitOnP List.isEmpty <;> rfl
  · rename_i h
    exact endRun_addAll_single h [] records

theorem keyword_addAll (t : OpenTables α) (records : List (Record α)) :
    (t.addAll constants records).keyword = t.keyword := by
  induction records generalizing t with
  | nil => rfl
  | cons record records ih =>
    rw [addAll_cons, ih, add_toArray]
    split
    · rw [endRun_eq]
    · split
      · rfl
      · rw [endRun_eq]

end OpenTables

end BlackOil

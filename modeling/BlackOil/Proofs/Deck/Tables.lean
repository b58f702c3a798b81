import BlackOil.Proofs.Deck.Grouping
import BlackOil.Proofs.Deck.Keyword
import BlackOil.Proofs.Deck.Parse

/-!
# Tables

How a deck text with tables reads. An occurrence of a table keyword runs over its records up
to the first token that cannot stand in one, and its tables go behind those of the earlier
occurrences.
-/
namespace BlackOil
variable {α : Type}

/-- A record of number tokens and the slash that ends it. -/
structure RecordTokens where
  items : List Token
  slash : Token
  numbers : ∀ token ∈ items, token.number?.isSome
  ends : slash.isSlash

/-- An occurrence of a table keyword: its word, its records, and what follows up to the
next occurrence. -/
structure TableTokens where
  keyword : TableKeyword
  word : Token
  records : List RecordTokens
  rest : List Token
  inColumnOne : word.inColumnOne
  introduces : Keyword.ofText word.text = .tables keyword
  stops : ∀ token ∈ rest.head?, ¬token.inRecord

/-- The values that a number token stands for. -/
def Token.expansion [Scalar α] (token : Token) : List α :=
  match token.number? with
  | some (count, value) => List.replicate count (Scalar.ofNumeral value)
  | none => []

namespace RecordTokens

def tokens (r : RecordTokens) : List Token := r.items ++ [r.slash]

/-- The record with its counts written out. -/
def values [Scalar α] (r : RecordTokens) : Record α := r.items.flatMap Token.expansion

end RecordTokens

def TableTokens.tokens (o : TableTokens) : List Token :=
  o.word :: o.records.flatMap RecordTokens.tokens ++ o.rest

variable [Scalar α] {constants : Constants α} {blocks : Array (Block α)} {t : OpenTables α}

namespace Reader

theorem recordItem_of_number {token : Token} (h : token.number?.isSome) (name : String) :
    recordItem name token = .ok (token.expansion (α := α)).toArray := by
  obtain ⟨⟨count, value⟩, hnumber⟩ := Option.isSome_iff_exists.mp h
  simp only [recordItem, Token.expansion, hnumber, List.toArray_replicate]

theorem not_isSlash_of_number {token : Token} (h : token.number?.isSome) : ¬token.isSlash := by
  intro hslash
  have htext : token.text = ['/'] := eq_of_beq hslash
  unfold Token.number? at h
  rw [htext] at h
  exact absurd h (by decide +kernel)

theorem step_betweenRecords {token : Token} (h : token.inRecord) :
    step constants ⟨blocks, .betweenRecords t⟩ token =
      step constants ⟨blocks, .tableRecord t #[]⟩ token := by
  simp only [step, if_pos h]

/-- Where a number only adds its values, so do the items of a record. -/
theorem foldlM_numbers {place : Array α → Place α}
    (hplace : ∀ (values : Array α) (token : Token), token.number?.isSome →
      step constants ⟨blocks, place values⟩ token =
        .ok ⟨blocks, place (values ++ token.expansion.toArray)⟩)
    {items : List Token} (h : ∀ token ∈ items, token.number?.isSome) (values : Array α) :
    items.foldlM (step constants) ⟨blocks, place values⟩ =
      .ok ⟨blocks, place (values ++ (items.flatMap Token.expansion).toArray)⟩ := by
  induction items generalizing values with
  | nil => simp [pure, Except.pure]
  | cons token items ih =>
    rw [List.foldlM_cons, hplace values token (h token List.mem_cons_self), Outcome.ok_bind,
      ih fun token hm => h token (List.mem_cons_of_mem _ hm), List.flatMap_cons,
      Array.append_assoc, List.append_toArray token.expansion]

theorem foldlM_items {items : List Token} (h : ∀ token ∈ items, token.number?.isSome)
    (values : Array α) : items.foldlM (step constants) ⟨blocks, .tableRecord t values⟩ =
      .ok ⟨blocks, .tableRecord t (values ++ (items.flatMap Token.expansion).toArray)⟩ := by
  apply foldlM_numbers _ h
  intro values token htoken
  simp only [step, stepTable, if_neg (not_isSlash_of_number htoken), recordItem_of_number htoken]
  rfl

/-- The items of a single record. -/
theorem foldlM_singleItems {keyword : RecordKeyword} {items : List Token}
    (h : ∀ token ∈ items, token.number?.isSome) (values : Array α) :
    items.foldlM (step constants) ⟨blocks, .record keyword values⟩ =
      .ok ⟨blocks, .record keyword (values ++ (items.flatMap Token.expansion).toArray)⟩ := by
  apply foldlM_numbers _ h
  intro values token htoken
  simp only [step, if_neg (not_isSlash_of_number htoken), recordItem_of_number htoken]
  rfl

/-- The tokens of a record add its values. -/
theorem foldlM_record (r : RecordTokens) :
    r.tokens.foldlM (step constants) ⟨blocks, .betweenRecords t⟩ =
      .ok ⟨blocks, .betweenRecords (t.add constants r.values.toArray)⟩ := by
  -- the first token of a record, be it the slash, opens it with no values
  have hstart : r.tokens.foldlM (step constants) ⟨blocks, .betweenRecords t⟩ =
      r.tokens.foldlM (step constants) ⟨blocks, .tableRecord t #[]⟩ := by
    obtain ⟨items, slash, numbers, ends⟩ := r
    cases items with
    | nil =>
      change [slash].foldlM _ _ = [slash].foldlM _ _
      rw [List.foldlM_cons, List.foldlM_cons, step_betweenRecords]
      exact Bool.or_eq_true_iff.mpr (Or.inl ends)
    | cons token items =>
      change (token :: (items ++ [slash])).foldlM _ _ = (token :: (items ++ [slash])).foldlM _ _
      rw [List.foldlM_cons, List.foldlM_cons, step_betweenRecords]
      exact Bool.or_eq_true_iff.mpr (Or.inr (numbers token List.mem_cons_self))
  rw [hstart, RecordTokens.tokens, List.foldlM_append, foldlM_items r.numbers]
  change [r.slash].foldlM (step constants) _ = _
  simp only [List.foldlM_cons, step, stepTable, if_pos r.ends, Array.empty_append]
  rfl

theorem foldlM_records (records : List RecordTokens) (t : OpenTables α) :
    (records.flatMap RecordTokens.tokens).foldlM (step constants) ⟨blocks, .betweenRecords t⟩ =
      .ok ⟨blocks, .betweenRecords (t.addAll constants (records.map RecordTokens.values))⟩ := by
  induction records generalizing t with
  | nil => rfl
  | cons r records ih =>
    rw [List.flatMap_cons, List.foldlM_append, foldlM_record, List.map_cons,
      OpenTables.addAll_cons]
    exact ih _

end Reader

namespace TableTokens

/-- What an occurrence makes of its records. -/
def tables (constants : Constants α) (o : TableTokens) : List (Table α) :=
  o.keyword.group ((o.records.map RecordTokens.values).map (o.keyword.toSI constants))

/-- The tables hold the records that are not empty, in their order. -/
theorem flatten_tables (o : TableTokens) : (o.tables constants).flatten =
    ((o.records.map RecordTokens.values).filter (!·.isEmpty)).map (o.keyword.toSI constants) := by
  have hempty : ((!·.isEmpty) ∘ o.keyword.toSI constants) = (!List.isEmpty ·) := by
    funext record
    exact congrArg (!·) (o.keyword.isEmpty_toSI constants record)
  rw [tables, TableKeyword.flatten_group, List.filter_map, hempty]

theorem ofTokens_tokens (o : TableTokens) {others : Array (Block α)}
    (hrest : Block.ofTokens constants o.rest = .ok others) :
    Block.ofTokens constants o.tokens =
      .ok (#[.tables o.keyword (o.tables constants)] ++ others) := by
  have hrecords : Block.ofTokens constants (o.word :: o.records.flatMap RecordTokens.tokens) =
      .ok #[.tables o.keyword (o.tables constants)] := by
    have hword : Reader.step constants {} o.word =
        .ok ⟨#[], .betweenRecords { keyword := o.keyword }⟩ := by
      simp only [Reader.step, Reader.openKeyword, if_pos o.inColumnOne, o.introduces]
    rw [Block.ofTokens, List.foldlM_cons, hword]
    change (o.records.flatMap RecordTokens.tokens).foldlM (Reader.step constants)
      ⟨#[], .betweenRecords { keyword := o.keyword }⟩ >>= Reader.finish = _
    rw [Reader.foldlM_records]
    change Except.ok #[OpenTables.block _] = _
    rw [OpenTables.block, OpenTables.keyword_addAll, OpenTables.endRun_addAll]
    rfl
  rw [tokens, Block.ofTokens_append hrecords o.stops, hrest]
  rfl

/-- The blocks of a text are the tables of its occurrences and what stands between them. -/
theorem ofTokens_flatMap {occurrences : List TableTokens} {others : TableTokens → Array (Block α)}
    (hrest : ∀ o ∈ occurrences, Block.ofTokens constants o.rest = .ok (others o)) :
    Block.ofTokens constants (occurrences.flatMap tokens) =
      .ok (occurrences.flatMap fun o =>
        .tables o.keyword (o.tables constants) :: (others o).toList).toArray := by
  induction occurrences with
  | nil => rfl
  | cons o occurrences ih =>
    have hmore : ∀ token ∈ (occurrences.flatMap tokens).head?, ¬token.inRecord := by
      intro token htoken
      cases occurrences with
      | nil => cases htoken
      | cons next occurrences =>
        cases htoken
        exact TableKeyword.not_inRecord next.introduces
    have ho := ofTokens_tokens o (hrest o List.mem_cons_self)
    rw [List.flatMap_cons, Block.ofTokens_append ho hmore,
      ih fun o' ho' => hrest o' (List.mem_cons_of_mem _ ho')]
    refine congrArg Except.ok (Array.toList_inj.mp ?_)
    simp

end TableTokens

namespace Block

/-- Keywords that the library does not use are skipped with their records. -/
theorem ofTokens_skipped {tokens : List Token}
    (h : ∀ token ∈ tokens, token.inColumnOne → Keyword.ofText token.text = .other) :
    ofTokens constants tokens = .ok #[] := by
  have hfold : tokens.foldlM (Reader.step constants) {} = .ok {} := by
    induction tokens with
    | nil => rfl
    | cons token tokens ih =>
      have hstep : Reader.step constants {} token = .ok {} := by
        simp only [Reader.step, Reader.openKeyword]
        split
        · rename_i hcolumn
          rw [h token List.mem_cons_self hcolumn]
        · rfl
      rw [List.foldlM_cons, hstep]
      exact ih fun other hm => h other (List.mem_cons_of_mem _ hm)
  rw [ofTokens, hfold]
  rfl

variable {β : Type} (keyword : β → TableKeyword) (tables : β → List (Table α))
  {others : β → List (Block α)}

omit [Scalar α] in
theorem arrays_flatMap (l : List β) :
    arrays (l.flatMap fun b => .tables (keyword b) (tables b) :: others b) =
      arrays (l.flatMap others) := by
  simp [arrays, List.filterMap_flatMap]

omit [Scalar α] in
theorem lastDimensions_flatMap (l : List β) :
    lastDimensions (l.flatMap fun b => .tables (keyword b) (tables b) :: others b) =
      lastDimensions (l.flatMap others) := by
  induction l with
  | nil => rfl
  | cons b l ih =>
    rw [List.flatMap_cons, List.flatMap_cons, lastDimensions_append, lastDimensions_append, ih]
    rfl

omit [Scalar α] in
theorem newTables_flatMap {l : List β} (h : ∀ b ∈ l, newTables (others b) = []) :
    newTables (l.flatMap fun b => .tables (keyword b) (tables b) :: others b) =
      l.map fun b => ((keyword b).name, tables b) := by
  induction l with
  | nil => rfl
  | cons b l ih =>
    have hb : newTables (.tables (keyword b) (tables b) :: others b) =
        [((keyword b).name, tables b)] := congrArg (_ :: ·) (h b List.mem_cons_self)
    rw [List.flatMap_cons, newTables, List.filterMap_append]
    exact congrArg₂ (· ++ ·) hb (ih fun b' hb' => h b' (List.mem_cons_of_mem _ hb'))

end Block

namespace TableTokens

/-- The tables that the occurrences of a keyword put under it. -/
theorem find?_collect (occurrences : List TableTokens) (keyword : TableKeyword) :
    (Catalog.collect (· ++ ·) (occurrences.map fun o =>
      (o.keyword.name, o.tables constants))).find? keyword.name =
      let mine := occurrences.filter (·.keyword = keyword)
      if mine = [] then none else some (mine.flatMap (tables constants)) := by
  have hname : ((fun pair : String × List (Table α) => decide (pair.1 = keyword.name)) ∘
      fun o : TableTokens => (o.keyword.name, o.tables constants)) =
      fun o => decide (o.keyword = keyword) := by
    funext o
    exact decide_eq_decide.mpr ⟨TableKeyword.name_injective, congrArg TableKeyword.name⟩
  rw [Catalog.find?_collect_append, List.filter_map, hname]
  simp only [List.map_eq_nil_iff, List.flatMap_map]

theorem find?_collect_eq_none {occurrences : List TableTokens} {name : String}
    (h : name ∉ occurrences.map (·.keyword.name)) :
    (Catalog.collect (· ++ ·) (occurrences.map fun o =>
      (o.keyword.name, o.tables constants))).find? name = none := by
  rw [Catalog.find?_collect_append]
  apply if_pos
  rw [List.filter_eq_nil_iff]
  intro pair hpair hname
  obtain ⟨o, ho, rfl⟩ := List.mem_map.mp hpair
  exact h (List.mem_map.mpr ⟨o, ho, of_decide_eq_true hname⟩)

theorem flatten_flatMap_tables {mine : List TableTokens} {keyword : TableKeyword}
    (h : ∀ o ∈ mine, o.keyword = keyword) : (mine.flatMap (tables constants)).flatten =
      (mine.flatMap fun o => (o.records.map RecordTokens.values).filter (!·.isEmpty)).map
        (keyword.toSI constants) := by
  rw [← List.flatMap_id, List.flatMap_assoc, List.map_flatMap]
  apply List.flatMap_congr
  intro o ho
  rw [List.flatMap_id, flatten_tables, h o ho]

end TableTokens

namespace Deck

/-- How a text reads that is made up of occurrences of table keywords, between which other
keywords may stand. -/
theorem parse_tables {text : String} {occurrences : List TableTokens}
    {others : TableTokens → Array (Block α)}
    (htext : Token.ofText text.toList = occurrences.flatMap TableTokens.tokens)
    (hrest : ∀ o ∈ occurrences, Block.ofTokens constants o.rest = .ok (others o))
    (hothers : ∀ o ∈ occurrences, Block.newTables (others o).toList = []) :
    let blocks := occurrences.flatMap fun o => (others o).toList
    ∃ tables : Catalog (List (Table α)),
      parse constants text =
        ofCatalogs (Block.arrayCatalog blocks) tables (Block.lastDimensions blocks) ∧
      (blocks = [] → parse constants text = .ok { tables }) ∧
      (∀ name, name ∉ occurrences.map (·.keyword.name) → tables.find? name = none) ∧
      (∀ keyword, let mine := occurrences.filter (·.keyword = keyword)
        mine ≠ [] → ∃ stored, tables.find? keyword.name = some stored ∧
          stored = mine.flatMap (fun o => keyword.group
            ((o.records.map RecordTokens.values).map (keyword.toSI constants))) ∧
          (∀ table ∈ stored, table ≠ [] ∧ ∀ record ∈ table, record ≠ []) ∧
          stored.flatten = (mine.flatMap fun o =>
            (o.records.map RecordTokens.values).filter (!·.isEmpty)).map
              (keyword.toSI constants)) ∧
      ∀ (keyword : TableKeyword) (record : Record α),
        (keyword.toSI constants record).length = record.length ∧
        ∀ position value, record[position]? = some value →
          (keyword.toSI constants record)[position]? =
            some (value * keyword.unitValue constants position) := by
  intro blocks
  let pairs := occurrences.map fun o => (o.keyword.name, o.tables constants)
  have hparse : parse constants text = ofCatalogs (Block.arrayCatalog blocks)
      (Catalog.collect (· ++ ·) pairs) (Block.lastDimensions blocks) := by
    rw [parse, htext, TableTokens.ofTokens_flatMap hrest]
    change ofBlocks _ = _
    rw [ofBlocks_eq, Block.arrayCatalog, Block.arrays_flatMap, Block.lastDimensions_flatMap,
      Block.tableCatalog_eq_collect, Block.newTables_flatMap _ _ hothers]
    rfl
  refine ⟨Catalog.collect (· ++ ·) pairs, hparse, ?_, ?_, ?_, ?_⟩
  · intro hblocks
    rw [hparse, hblocks]
    rfl
  · intro name hname
    exact TableTokens.find?_collect_eq_none hname
  · intro keyword mine hmine
    have hkeyword : ∀ o ∈ mine, o.keyword = keyword :=
      fun o ho => of_decide_eq_true (List.mem_filter.mp ho).2
    refine ⟨mine.flatMap (TableTokens.tables constants), ?_, ?_, ?_, ?_⟩
    · rw [TableTokens.find?_collect]
      exact if_neg hmine
    · apply List.flatMap_congr
      intro o ho
      rw [TableTokens.tables, hkeyword o ho]
    · intro table htable
      obtain ⟨o, -, ho⟩ := List.mem_flatMap.mp htable
      exact TableKeyword.ne_nil_of_mem_group ho
    · exact TableTokens.flatten_flatMap_tables hkeyword
  · intro keyword record
    exact ⟨keyword.length_toSI constants record, fun position value h =>
      keyword.getElem?_toSI constants h⟩

/-- Two occurrences of one keyword with a skipped keyword and another one between them. -/
def fourOccurrences : String :=
  "PVTO\n 1 2 3 4 /\n/\n 2*5 /\n 6 /\nEQUIL\n 9 /\n" ++
    "PVTW\n 1 2 3 4 5 6 /\npvto\n/\n 7 /\nSWOF\n 1 2 3 4 5 /\n"

theorem parse_tables_runs :
    ∃ tables : Catalog (List (Table Exact)), parse {} fourOccurrences = .ok { tables } ∧
      tables.find? "PVTO" =
        some [[[1.0, 2e5, 3.0, 4e-3]], [[5.0, 5e5], [6.0]], [[7.0]]] ∧
      tables.find? "PVTW" = some [[[1e5, 2.0, 3e-5, 4e-3, 5e-5, 6e5]]] ∧
      tables.find? "SWOF" = some [[[1.0, 2.0, 3.0, 4e5, 5.0]]] ∧
      tables.find? "SGOF" = none := by
  let word (text : String) : Token := ⟨text.toList, true⟩
  let item (text : String) : Token := ⟨text.toList, false⟩
  let first : TableTokens :=
    { keyword := .liveOil
      word := word "PVTO"
      records := [
        ⟨["1", "2", "3", "4"].map item, item "/", by decide +kernel, rfl⟩,
        ⟨[], word "/", by decide, rfl⟩,
        ⟨[item "2*5"], item "/", by decide +kernel, rfl⟩,
        ⟨[item "6"], item "/", by decide +kernel, rfl⟩]
      rest := [word "EQUIL", item "9", item "/"]
      inColumnOne := rfl
      introduces := by decide +kernel
      stops := by decide +kernel }
  let second : TableTokens :=
    { keyword := .water
      word := word "PVTW"
      records := [⟨["1", "2", "3", "4", "5", "6"].map item, item "/", by decide +kernel, rfl⟩]
      rest := []
      inColumnOne := rfl
      introduces := by decide +kernel
      stops := by decide }
  let third : TableTokens :=
    { keyword := .liveOil
      word := word "pvto"
      records := [
        ⟨[], word "/", by decide, rfl⟩,
        ⟨[item "7"], item "/", by decide +kernel, rfl⟩]
      rest := []
      inColumnOne := rfl
      introduces := by decide +kernel
      stops := by decide }
  let fourth : TableTokens :=
    { keyword := .oilWater
      word := word "SWOF"
      records := [⟨["1", "2", "3", "4", "5"].map item, item "/", by decide +kernel, rfl⟩]
      rest := []
      inColumnOne := rfl
      introduces := by decide +kernel
      stops := by decide }
  let occurrences := [first, second, third, fourth]
  have htext : Token.ofText fourOccurrences.toList = occurrences.flatMap TableTokens.tokens := by
    decide +kernel
  have hrest : ∀ o ∈ occurrences, Block.ofTokens ({} : Constants Exact) o.rest = .ok #[] := by
    intro o ho
    obtain rfl | ho := List.mem_cons.mp ho
    · exact Block.ofTokens_skipped (by decide +kernel)
    · have hempty : ∀ o ∈ [second, third, fourth], o.rest = [] := by decide +kernel
      rw [hempty o ho]
      rfl
  obtain ⟨tables, -, hok, hnone, hstored, -⟩ := parse_tables htext hrest fun _ _ => rfl
  have hfind : ∀ (keyword : TableKeyword) {expected : List (Table Exact)},
      occurrences.filter (·.keyword = keyword) ≠ [] →
      ((occurrences.filter (·.keyword = keyword)).flatMap fun o => keyword.group
        ((o.records.map RecordTokens.values).map (keyword.toSI {}))) = expected →
      tables.find? keyword.name = some expected := by
    intro keyword expected hmine hexpected
    obtain ⟨stored, hstored, htables, -, -⟩ := hstored keyword hmine
    rw [hstored, htables, hexpected]
  refine ⟨tables, hok rfl, ?_, ?_, ?_, hnone "SGOF" (by decide)⟩
  · exact hfind .liveOil (List.cons_ne_nil first _) (by decide +kernel)
  · exact hfind .water (List.cons_ne_nil second _) (by decide +kernel)
  · exact hfind .oilWater (List.cons_ne_nil fourth _) (by decide +kernel)

end Deck
end BlackOil

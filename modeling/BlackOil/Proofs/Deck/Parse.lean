import BlackOil.Proofs.Deck.Merge
import BlackOil.Proofs.Deck.Reading
import BlackOil.Scalar.Exact

/-!
# Decks of texts in parts

A deck text can be cut after a line break wherever no record is open: the deck of the
whole is that of the two parts, in which the later values of a keyword replace the earlier
ones and later tables follow the earlier ones. No state of the reader goes over the cut.
The one thing that can fail is what only the whole shows, that an array of one part does
not fit the dimensions of the other.
-/
namespace BlackOil
variable {α : Type}

theorem TableKeyword.upper_name (keyword : TableKeyword) :
    Text.upper keyword.name = keyword.name := by
  cases keyword <;> decide +kernel

namespace Block

/-- The tables that the blocks add to each keyword. -/
def newTables (blocks : List (Block α)) : List (String × List (Table α)) :=
  blocks.filterMap fun
    | tables keyword new => some (keyword.name, new)
    | _ => none

theorem tableCatalog_eq_collect (blocks : List (Block α)) :
    tableCatalog blocks = Catalog.collect (· ++ ·) (newTables blocks) := by
  apply Catalog.ext_entries
  have hfold : ∀ c : Catalog (List (Table α)),
      (blocks.foldl (fun c block => match block with
        | tables keyword new => c.put keyword.name ((c.find? keyword.name).getD [] ++ new)
        | _ => c) c).entries = insertEntries (· ++ ·) c.entries (newTables blocks) := by
    induction blocks with
    | nil => exact fun c => rfl
    | cons block blocks ih =>
      intro c
      rw [List.foldl_cons, ih]
      cases block with
      | tables keyword new =>
        have hput : (c.put keyword.name ((c.find? keyword.name).getD [] ++ new)).entries =
            insertEntry (· ++ ·) keyword.name new c.entries := by
          rw [← putEntry_lookup]
          change Catalog.putEntry _ _ c.entries = _
          rw [Catalog.find?]
          cases c.entries.lookup keyword.name <;> rfl
        exact congrArg (insertEntries _ · (newTables blocks)) hput
      | _ => rfl
  exact hfold {}

theorem upper_newTables {blocks : List (Block α)} {entry : String × List (Table α)}
    (h : entry ∈ (tableCatalog blocks).entries) : Text.upper entry.1 = entry.1 := by
  have hkey : entry.1 ∈ (newTables blocks).map Prod.fst := by
    rw [tableCatalog_eq_collect] at h
    have hm := mem_keys_insertEntries.mp (List.mem_map_of_mem h)
    exact hm.resolve_left List.not_mem_nil
  obtain ⟨pair, hp, hfst⟩ := List.mem_map.mp hkey
  obtain ⟨block, -, hblock⟩ := List.mem_filterMap.mp hp
  rw [← hfst]
  cases block with
  | tables keyword new =>
    cases hblock
    exact keyword.upper_name
  | _ => cases hblock

theorem lastDimensions_concat (blocks : List (Block α)) (block : Block α) :
    lastDimensions (blocks ++ [block]) = (lastDimensions [block]).or (lastDimensions blocks) := by
  unfold lastDimensions
  rw [List.foldl_append]
  cases block <;> rfl

theorem lastDimensions_append (blocks more : List (Block α)) :
    lastDimensions (blocks ++ more) = (lastDimensions more).or (lastDimensions blocks) := by
  induction more using List.reverseRecOn with
  | nil =>
    rw [List.append_nil]
    rfl
  | append_singleton more block ih =>
    rw [← List.append_assoc, lastDimensions_concat, lastDimensions_concat, ih, Option.or_assoc]

variable [Scalar α]

/-- The cell arrays of the blocks under their keywords. -/
def arrayCatalog (blocks : List (Block α)) : Catalog (CellValues α) :=
  Catalog.ofList ((arrays blocks).map fun (keyword, values) =>
    (Text.upper keyword, CellValues.ofArray (Text.upper keyword) values))

end Block

namespace Deck

theorem ofCatalogs_eq_ok_iff {arrays : Catalog (CellValues α)}
    {tables : Catalog (List (Table α))} {dimensions : Option (List Int)} {deck : Deck α} :
    ofCatalogs arrays tables dimensions = .ok deck ↔ deck.arrays = arrays ∧
      deck.tables = tables ∧ deck.dimensions.map Dimensions.toList = dimensions := by
  constructor
  · intro h
    unfold ofCatalogs at h
    split at h
    · cases h
      exact ⟨rfl, rfl, rfl⟩
    · split at h
      · cases h
      · rename_i sizes d hd
        split at h
        · cases h
        · cases h
          exact ⟨rfl, rfl, congrArg some (Dimensions.toList_of_ofList? hd)⟩
  · intro h
    obtain ⟨rfl, rfl, rfl⟩ := h
    cases hd : deck.dimensions with
    | none =>
      obtain ⟨arrays, tables, dimensions, hsize⟩ := deck
      cases hd
      rfl
    | some d =>
      obtain ⟨arrays, tables, dimensions, hsize⟩ := deck
      cases hd
      have hfind : arrays.entries.find? (·.2.size ≠ d.count) = none := by
        rw [List.find?_eq_none]
        intro entry he
        simpa using hsize d rfl entry he
      simp only [ofCatalogs, Option.map_some, Dimensions.ofList?_toList]
      split
      · rename_i hsome
        rw [hfind] at hsome
        cases hsome
      · rfl

/-- The deck of two decks. Cell values of the second replace those of the first, its tables
follow those of the first, and its dimensions count where it has any. -/
def merge (a b : Deck α) : Except Fault (Deck α) :=
  ofCatalogs (a.arrays.merge (fun _ values => values) b.arrays) (a.tables.merge (· ++ ·) b.tables)
    ((b.dimensions.or a.dimensions).map Dimensions.toList)

theorem find?_arrays_merge (a b : Deck α) (keyword : String) :
    (a.arrays.merge (fun _ values => values) b.arrays).find? keyword =
      (b.arrays.find? keyword).or (a.arrays.find? keyword) := by
  rw [Catalog.find?_merge]
  cases a.arrays.find? keyword <;> cases b.arrays.find? keyword <;> rfl

theorem of_merge_eq_ok {a b deck : Deck α} (h : a.merge b = .ok deck) :
    (∀ keyword, deck.arrays.find? keyword =
      (b.arrays.find? keyword).or (a.arrays.find? keyword)) ∧
    (∀ keyword, deck.tables.find? keyword =
      Option.merge (· ++ ·) (a.tables.find? keyword) (b.tables.find? keyword)) ∧
    deck.dimensions = b.dimensions.or a.dimensions := by
  obtain ⟨harrays, htables, hdims⟩ := ofCatalogs_eq_ok_iff.mp h
  refine ⟨fun keyword => ?_, fun keyword => ?_, ?_⟩
  · rw [harrays, find?_arrays_merge]
  · rw [htables, Catalog.find?_merge]
  · exact Option.map_injective (fun _ _ => Dimensions.toList_injective) hdims

/-- Two decks fail to merge only for an array that does not fit the dimensions. -/
theorem of_merge_eq_error {a b : Deck α} {fault : Fault} (h : a.merge b = .error fault) :
    ∃ d keyword values, b.dimensions.or a.dimensions = some d ∧
      (b.arrays.find? keyword).or (a.arrays.find? keyword) = some values ∧
      values.size ≠ d.count ∧ fault = .cellCount keyword values.size d.count := by
  unfold merge at h
  cases hd : b.dimensions.or a.dimensions with
  | none =>
    rw [hd] at h
    cases h
  | some d =>
    rw [hd] at h
    simp only [ofCatalogs, Option.map_some, Dimensions.ofList?_toList] at h
    split at h
    · rename_i keyword values hfind
      cases h
      refine ⟨d, keyword, values, rfl, ?_, by simpa using List.find?_some hfind, rfl⟩
      rw [← find?_arrays_merge]
      exact Catalog.find?_of_mem (List.mem_of_find?_eq_some hfind)
    · cases h

variable [Scalar α]

theorem ofBlocks_eq (blocks : List (Block α)) : ofBlocks blocks =
    ofCatalogs (Block.arrayCatalog blocks) (Block.tableCatalog blocks)
      (Block.lastDimensions blocks) := by
  have htables : (Block.tableCatalog blocks).entries.map
      (fun entry => (Text.upper entry.1, entry.2)) = (Block.tableCatalog blocks).entries := by
    refine (List.map_congr_left fun entry he => ?_).trans (List.map_id _)
    rw [Block.upper_newTables he]
    rfl
  rw [ofBlocks, ofLists, htables, Catalog.ofList_entries]
  rfl

/-- The deck of two sequences of blocks. -/
theorem ofBlocks_append {blocks more : List (Block α)} {a b : Deck α}
    (ha : ofBlocks blocks = .ok a) (hb : ofBlocks more = .ok b) :
    ofBlocks (blocks ++ more) = a.merge b := by
  rw [ofBlocks_eq, ofCatalogs_eq_ok_iff] at ha hb
  have harrays : Block.arrayCatalog (blocks ++ more) =
      (Block.arrayCatalog blocks).merge (fun _ values => values) (Block.arrayCatalog more) := by
    simp only [Block.arrayCatalog, Block.arrays, List.filterMap_append, List.map_append,
      Catalog.ofList_eq_collect]
    exact Catalog.collect_append (fun _ _ _ => rfl) _ _
  have htables : Block.tableCatalog (blocks ++ more) =
      (Block.tableCatalog blocks).merge (· ++ ·) (Block.tableCatalog more) := by
    simp only [Block.tableCatalog_eq_collect, Block.newTables, List.filterMap_append]
    exact Catalog.collect_append List.append_assoc _ _
  rw [ofBlocks_eq, harrays, htables, Block.lastDimensions_append, merge, ha.1, ha.2.1, hb.1,
    hb.2.1, ← ha.2.2, ← hb.2.2]
  cases b.dimensions <;> rfl

/-- Reading is compositional. -/
theorem parse_append {constants : Constants α} {text more : String} {a b : Deck α}
    (hbreak : Text.EndsWithBreak text.toList)
    (hmore : ∀ token ∈ (Token.ofText more.toList).head?, ¬token.inRecord)
    (ha : parse constants text = .ok a) (hb : parse constants more = .ok b) :
    parse constants (text ++ more) = a.merge b ∧
    (∀ deck, a.merge b = .ok deck →
      (∀ keyword, deck.arrays.find? keyword =
        (b.arrays.find? keyword).or (a.arrays.find? keyword)) ∧
      (∀ keyword, deck.tables.find? keyword =
        Option.merge (· ++ ·) (a.tables.find? keyword) (b.tables.find? keyword)) ∧
      deck.dimensions = b.dimensions.or a.dimensions) ∧
    ∀ fault, a.merge b = .error fault →
      ∃ d keyword values, b.dimensions.or a.dimensions = some d ∧
        (b.arrays.find? keyword).or (a.arrays.find? keyword) = some values ∧
        values.size ≠ d.count ∧ fault = .cellCount keyword values.size d.count := by
  refine ⟨?_, fun deck => of_merge_eq_ok, fun fault => of_merge_eq_error⟩
  obtain ⟨blocks, hblocks, ha⟩ := Outcome.bind_eq_ok_iff.mp ha
  obtain ⟨blocks', hblocks', hb⟩ := Outcome.bind_eq_ok_iff.mp hb
  rw [parse, String.toList_append, Token.ofText_append hbreak,
    Block.ofTokens_append hblocks hmore, hblocks', ← ofBlocks_append ha hb]
  change ofBlocks (blocks ++ blocks').toList = _
  rw [Array.toList_append]

theorem parse_append_poro : ∃ a b : Deck Exact, parse {} "DIMENS\n 2 1 1 /\n" = .ok a ∧
    parse {} "PORO\n 0.2 0.3 /\n" = .ok b ∧
    parse {} ("DIMENS\n 2 1 1 /\n" ++ "PORO\n 0.2 0.3 /\n") = a.merge b := by
  have hfirst : (parse {} "DIMENS\n 2 1 1 /\n" : Except Fault (Deck Exact)).toOption.isSome := by
    decide +kernel
  have hsecond : (parse {} "PORO\n 0.2 0.3 /\n" : Except Fault (Deck Exact)).toOption.isSome := by
    decide +kernel
  obtain ⟨a, ha⟩ := Outcome.exists_ok_of_isSome hfirst
  obtain ⟨b, hb⟩ := Outcome.exists_ok_of_isSome hsecond
  have hbreak : Text.EndsWithBreak "DIMENS\n 2 1 1 /\n".toList := ⟨'\n', by decide, by decide⟩
  exact ⟨a, b, ha, hb, (parse_append hbreak (by decide +kernel) ha hb).1⟩

end Deck
end BlackOil

import BlackOil.Deck.Reader
import BlackOil.Proofs.Outcome
import Mathlib.Data.List.Induction

/-!
# Merged catalogs

A catalog is filled pair by pair: a keyword that is there already keeps its place, and its
value is joined with the new one. Where joining is associative, filling a catalog with two
sequences of pairs is merging the two catalogs that they fill.
-/
namespace BlackOil
variable {β : Type}

/-- Joins a value under a keyword with the one that is there, if any. -/
def insertEntry (join : β → β → β) (keyword : String) (b : β) :
    List (String × β) → List (String × β)
  | [] => [(keyword, b)]
  | entry :: rest =>
    if keyword = entry.1 then (keyword, join entry.2 b) :: rest
    else entry :: insertEntry join keyword b rest

/-- Inserts the pairs in their order. -/
def insertEntries (join : β → β → β) (entries pairs : List (String × β)) : List (String × β) :=
  pairs.foldl (fun entries pair => insertEntry join pair.1 pair.2 entries) entries

section Entries
variable {join : β → β → β} {keyword other : String} {b b' : β} {entries pairs : List (String × β)}

theorem putEntry_eq_insertEntry (keyword : String) (b : β) (entries : List (String × β)) :
    Catalog.putEntry keyword b entries = insertEntry (fun _ b => b) keyword b entries := by
  induction entries with
  | nil => rfl
  | cons entry rest ih => rw [Catalog.putEntry, insertEntry, ih]

/-- Joining with what is there is putting the joined value. -/
theorem putEntry_lookup (join : β → β → β) (keyword : String) (b : β)
    (entries : List (String × β)) :
    Catalog.putEntry keyword (((entries.lookup keyword).map (join · b)).getD b) entries =
      insertEntry join keyword b entries := by
  induction entries with
  | nil => rfl
  | cons entry rest ih =>
    obtain ⟨first, old⟩ := entry
    rw [Catalog.putEntry, insertEntry, List.lookup_cons]
    by_cases h : keyword = first
    · simp [h]
    · simp only [if_neg h, beq_false_of_ne h]
      rw [ih]

theorem lookup_insertEntry : (insertEntry join keyword b entries).lookup other =
    if other = keyword then some (((entries.lookup keyword).map (join · b)).getD b)
    else entries.lookup other := by
  rw [← putEntry_lookup, Catalog.lookup_putEntry]

/-- Two values under one keyword are joined at once. -/
theorem insertEntry_insertEntry (hjoin : ∀ x y z, join (join x y) z = join x (join y z)) :
    insertEntry join keyword b' (insertEntry join keyword b entries) =
      insertEntry join keyword (join b b') entries := by
  induction entries with
  | nil => simp [insertEntry]
  | cons entry rest ih =>
    by_cases h : keyword = entry.1
    · simp [insertEntry, h, hjoin]
    · simp [insertEntry, h, ih]

/-- A keyword that is there may be joined before or after another one. -/
theorem insertEntry_comm (hne : keyword ≠ other) (hmem : keyword ∈ entries.map Prod.fst) :
    insertEntry join keyword b (insertEntry join other b' entries) =
      insertEntry join other b' (insertEntry join keyword b entries) := by
  induction entries with
  | nil => cases hmem
  | cons entry rest ih =>
    obtain ⟨first, old⟩ := entry
    by_cases h : keyword = first
    · subst h
      simp [insertEntry, hne.symm]
    · by_cases ho : other = first
      · subst ho
        simp [insertEntry, hne]
      · rw [List.map_cons, List.mem_cons] at hmem
        have hrest := ih (hmem.resolve_left h)
        simp [insertEntry, h, ho, hrest]

theorem mem_keys_insertEntry : keyword ∈ (insertEntry join other b entries).map Prod.fst ↔
    keyword = other ∨ keyword ∈ entries.map Prod.fst := by
  rw [← putEntry_lookup]
  exact Catalog.mem_keys_putEntry other keyword _ entries

/-- A keyword that is there may be joined before or after other ones. -/
theorem insertEntry_insertEntries (hmem : keyword ∈ entries.map Prod.fst)
    (hne : keyword ∉ pairs.map Prod.fst) :
    insertEntry join keyword b (insertEntries join entries pairs) =
      insertEntries join (insertEntry join keyword b entries) pairs := by
  induction pairs generalizing entries with
  | nil => rfl
  | cons pair pairs ih =>
    rw [List.map_cons, List.mem_cons, not_or] at hne
    change insertEntry join keyword b
      (insertEntries join (insertEntry join pair.1 pair.2 entries) pairs) = _
    rw [ih (mem_keys_insertEntry.mpr (Or.inr hmem)) hne.2, insertEntry_comm hne.1 hmem]
    rfl

/-- Pairs with a pair joined to them are inserted as they are before it is inserted. -/
theorem insertEntries_insertEntry (hjoin : ∀ x y z, join (join x y) z = join x (join y z))
    (hpairs : (pairs.map Prod.fst).Nodup) :
    insertEntries join entries (insertEntry join keyword b pairs) =
      insertEntry join keyword b (insertEntries join entries pairs) := by
  induction pairs generalizing entries with
  | nil => rfl
  | cons pair pairs ih =>
    obtain ⟨first, old⟩ := pair
    rw [List.map_cons, List.nodup_cons] at hpairs
    rw [insertEntry]
    by_cases h : keyword = first
    · subst h
      rw [if_pos rfl]
      change insertEntries join (insertEntry join keyword (join old b) entries) pairs =
        insertEntry join keyword b (insertEntries join (insertEntry join keyword old entries) pairs)
      have hmem : keyword ∈ (insertEntry join keyword old entries).map Prod.fst :=
        mem_keys_insertEntry.mpr (Or.inl rfl)
      rw [insertEntry_insertEntries hmem hpairs.1, insertEntry_insertEntry hjoin]
    · rw [if_neg h]
      exact ih hpairs.2

theorem nodup_insertEntry (h : (entries.map Prod.fst).Nodup) :
    ((insertEntry join keyword b entries).map Prod.fst).Nodup := by
  rw [← putEntry_lookup]
  exact Catalog.nodup_putEntry keyword _ h

theorem nodup_insertEntries (h : (entries.map Prod.fst).Nodup) :
    ((insertEntries join entries pairs).map Prod.fst).Nodup := by
  induction pairs generalizing entries with
  | nil => exact h
  | cons pair pairs ih => exact ih (nodup_insertEntry h)

/-- Inserting pairs is inserting the list that they fill. -/
theorem insertEntries_insertEntries (hjoin : ∀ x y z, join (join x y) z = join x (join y z)) :
    insertEntries join entries (insertEntries join [] pairs) =
      insertEntries join entries pairs := by
  induction pairs using List.reverseRecOn with
  | nil => rfl
  | append_singleton pairs pair ih =>
    have hsnoc : ∀ entries, insertEntries join entries (pairs ++ [pair]) =
        insertEntry join pair.1 pair.2 (insertEntries join entries pairs) := by
      intro entries
      rw [insertEntries, List.foldl_append]
      rfl
    have hnodup : ((insertEntries join [] pairs).map Prod.fst).Nodup :=
      nodup_insertEntries List.nodup_nil
    rw [hsnoc, hsnoc, insertEntries_insertEntry hjoin hnodup, ih]

theorem insertEntry_eq_append (h : keyword ∉ entries.map Prod.fst) :
    insertEntry join keyword b entries = entries ++ [(keyword, b)] := by
  induction entries with
  | nil => rfl
  | cons entry rest ih =>
    rw [List.map_cons, List.mem_cons, not_or] at h
    rw [insertEntry, if_neg h.1, ih h.2, List.cons_append]

/-- Pairs under new keywords are added at the end. -/
theorem insertEntries_eq_append (h : ((entries ++ pairs).map Prod.fst).Nodup) :
    insertEntries join entries pairs = entries ++ pairs := by
  induction pairs generalizing entries with
  | nil => exact (List.append_nil entries).symm
  | cons pair pairs ih =>
    have hnew : pair.1 ∉ entries.map Prod.fst := by
      rw [List.map_append, List.map_cons, List.nodup_append] at h
      intro hm
      exact h.2.2 pair.1 hm pair.1 List.mem_cons_self rfl
    change insertEntries join (insertEntry join pair.1 pair.2 entries) pairs = _
    rw [insertEntry_eq_append hnew, ih (by simpa using h), List.append_assoc]
    rfl

theorem mem_keys_insertEntries : keyword ∈ (insertEntries join entries pairs).map Prod.fst ↔
    keyword ∈ entries.map Prod.fst ∨ keyword ∈ pairs.map Prod.fst := by
  induction pairs generalizing entries with
  | nil => exact ⟨Or.inl, fun h => h.resolve_right List.not_mem_nil⟩
  | cons pair pairs ih =>
    change keyword ∈ (insertEntries join (insertEntry join pair.1 pair.2 entries) pairs).map
      Prod.fst ↔ _
    rw [ih, mem_keys_insertEntry, List.map_cons, List.mem_cons, or_assoc, or_left_comm]

/-- After the insertion a keyword has its values joined. -/
theorem lookup_insertEntries (hpairs : (pairs.map Prod.fst).Nodup) :
    (insertEntries join entries pairs).lookup keyword =
      Option.merge join (entries.lookup keyword) (pairs.lookup keyword) := by
  induction pairs generalizing entries with
  | nil => exact (Option.merge_none_right).symm
  | cons pair pairs ih =>
    obtain ⟨first, new⟩ := pair
    rw [List.map_cons, List.nodup_cons] at hpairs
    change (insertEntries join (insertEntry join first new entries) pairs).lookup keyword = _
    rw [ih hpairs.2, lookup_insertEntry, List.lookup_cons]
    by_cases h : keyword = first
    · subst h
      have hnone : pairs.lookup keyword = none := by
        rw [List.lookup_eq_none_iff]
        intro pair hp
        rw [bne_iff_ne]
        intro he
        exact hpairs.1 (List.mem_map.mpr ⟨pair, hp, he.symm⟩)
      rw [if_pos rfl, hnone, beq_self_eq_true]
      cases entries.lookup keyword <;> rfl
    · rw [if_neg h, beq_false_of_ne h]

end Entries

namespace Catalog

/-- Two catalogs as one. A keyword of both has its values joined. -/
def merge (join : β → β → β) (c c' : Catalog β) : Catalog β :=
  ⟨insertEntries join c.entries c'.entries, nodup_insertEntries c.nodup⟩

/-- The catalog that a sequence of pairs fills. -/
def collect (join : β → β → β) (pairs : List (String × β)) : Catalog β :=
  ⟨insertEntries join [] pairs, nodup_insertEntries List.nodup_nil⟩

theorem find?_of_mem {c : Catalog β} {entry : String × β} (h : entry ∈ c.entries) :
    c.find? entry.1 = some entry.2 := by
  obtain ⟨entries, hnodup⟩ := c
  unfold find?
  simp only at h ⊢
  induction entries with
  | nil => cases h
  | cons first entries ih =>
    rw [List.map_cons, List.nodup_cons] at hnodup
    rw [List.lookup_cons]
    rcases List.mem_cons.mp h with rfl | hm
    · rw [beq_self_eq_true]
    · have hne : entry.1 ≠ first.1 := by
        intro he
        exact hnodup.1 (he ▸ List.mem_map_of_mem hm)
      rw [beq_false_of_ne hne]
      exact ih hnodup.2 hm

variable {join : β → β → β}

theorem ext_entries {c c' : Catalog β} (h : c.entries = c'.entries) : c = c' := by
  cases c
  cases c'
  cases h
  rfl

theorem find?_merge (join : β → β → β) (c c' : Catalog β) (keyword : String) :
    (c.merge join c').find? keyword = Option.merge join (c.find? keyword) (c'.find? keyword) :=
  lookup_insertEntries c'.nodup

/-- Two sequences of pairs fill the merge of what each of them fills. -/
theorem collect_append (hjoin : ∀ x y z, join (join x y) z = join x (join y z))
    (pairs more : List (String × β)) :
    collect join (pairs ++ more) = (collect join pairs).merge join (collect join more) := by
  apply ext_entries
  change insertEntries join [] (pairs ++ more) =
    insertEntries join (insertEntries join [] pairs) (insertEntries join [] more)
  rw [insertEntries_insertEntries hjoin, insertEntries, List.foldl_append]
  rfl

/-- Lists under one keyword are joined in their order. -/
theorem find?_collect_append (pairs : List (String × List β)) (keyword : String) :
    (collect (· ++ ·) pairs).find? keyword =
      let mine := pairs.filter (·.1 = keyword)
      if mine = [] then none else some (mine.flatMap Prod.snd) := by
  induction pairs with
  | nil => rfl
  | cons pair pairs ih =>
    have hsingle : (collect (· ++ ·) [pair]).find? keyword =
        if keyword = pair.1 then some pair.2 else none := by
      change (insertEntry (· ++ ·) pair.1 pair.2 []).lookup keyword = _
      rw [lookup_insertEntry]
      rfl
    rw [← List.singleton_append, collect_append List.append_assoc, find?_merge, ih, hsingle]
    rw [List.singleton_append, List.filter_cons]
    by_cases h : keyword = pair.1
    · subst h
      by_cases hrest : pairs.filter (·.1 = pair.1) = []
      · simp [hrest]
      · simp [hrest]
    · have hne : ¬decide (pair.1 = keyword) := by simpa using Ne.symm h
      rw [if_neg h, if_neg hne]
      exact Option.merge_none_left

/-- A list of pairs fills a catalog in which the last value of a keyword counts. -/
theorem ofList_eq_collect (pairs : List (String × β)) :
    ofList pairs = collect (fun _ b => b) pairs := by
  apply ext_entries
  have hfold : ∀ c : Catalog β, (pairs.foldl (fun c pair => c.put pair.1 pair.2) c).entries =
      insertEntries (fun _ b => b) c.entries pairs := by
    induction pairs with
    | nil => exact fun c => rfl
    | cons pair pairs ih =>
      intro c
      rw [List.foldl_cons, ih]
      exact congrArg (insertEntries _ · pairs) (putEntry_eq_insertEntry pair.1 pair.2 c.entries)
  exact hfold {}

/-- The entries of a catalog fill it again. -/
theorem ofList_entries (c : Catalog β) : ofList c.entries = c := by
  rw [ofList_eq_collect]
  apply ext_entries
  exact insertEntries_eq_append c.nodup

end Catalog
end BlackOil

/-!
# Catalogs

Values under keywords, in the order in which the keywords first came. No keyword
comes twice. Putting a value under a keyword that is there replaces the old value
in its place.
-/
namespace BlackOil

structure Catalog (β : Type) where
  entries : List (String × β) := []
  nodup : (entries.map Prod.fst).Nodup := by simp

namespace Catalog
variable {β : Type}

def find? (c : Catalog β) (keyword : String) : Option β := c.entries.lookup keyword

def contains (c : Catalog β) (keyword : String) : Bool := (c.find? keyword).isSome

theorem mem_of_find? {c : Catalog β} {keyword : String} {b : β} (h : c.find? keyword = some b) :
    (keyword, b) ∈ c.entries := by
  obtain ⟨l₁, l₂, he, -⟩ := List.lookup_eq_some_iff.mp h
  rw [he]
  simp

def putEntry (keyword : String) (b : β) : List (String × β) → List (String × β)
  | [] => [(keyword, b)]
  | entry :: rest =>
    if keyword = entry.1 then (keyword, b) :: rest else entry :: putEntry keyword b rest

theorem mem_keys_putEntry (keyword other : String) (b : β) (entries : List (String × β)) :
    other ∈ (putEntry keyword b entries).map Prod.fst ↔
      other = keyword ∨ other ∈ entries.map Prod.fst := by
  induction entries with
  | nil => simp [putEntry]
  | cons entry rest ih =>
    unfold putEntry
    split
    · rename_i h
      simp [h]
    · rw [List.map_cons, List.mem_cons, ih, List.map_cons, List.mem_cons]
      exact or_left_comm

theorem nodup_putEntry (keyword : String) (b : β) {entries : List (String × β)}
    (h : (entries.map Prod.fst).Nodup) : ((putEntry keyword b entries).map Prod.fst).Nodup := by
  induction entries with
  | nil => simp [putEntry]
  | cons entry rest ih =>
    rw [List.map_cons, List.nodup_cons] at h
    unfold putEntry
    split
    · rename_i hk
      rw [List.map_cons, List.nodup_cons, hk]
      exact h
    · rename_i hk
      rw [List.map_cons, List.nodup_cons, mem_keys_putEntry]
      exact ⟨fun hm => hm.elim (fun he => hk he.symm) h.1, ih h.2⟩

def put (c : Catalog β) (keyword : String) (b : β) : Catalog β :=
  ⟨putEntry keyword b c.entries, nodup_putEntry keyword b c.nodup⟩

/-- Puts the pairs in their order. -/
def ofList (pairs : List (String × β)) : Catalog β :=
  pairs.foldl (fun c pair => c.put pair.1 pair.2) {}

theorem lookup_putEntry (keyword other : String) (b : β) (entries : List (String × β)) :
    (putEntry keyword b entries).lookup other =
      if other = keyword then some b else entries.lookup other := by
  induction entries with
  | nil =>
    by_cases h : other = keyword
    · simp [putEntry, h]
    · simp [putEntry, h, List.lookup_cons, beq_false_of_ne h]
  | cons entry rest ih =>
    obtain ⟨first, value⟩ := entry
    by_cases hk : keyword = first
    · subst hk
      by_cases h : other = keyword
      · simp [putEntry, h]
      · simp [putEntry, h, List.lookup_cons, beq_false_of_ne h]
    · rw [putEntry, if_neg hk, List.lookup_cons, List.lookup_cons, ih]
      by_cases h : other = keyword
      · simp [h, beq_false_of_ne hk]
      · simp [h]

@[simp] theorem find?_put (c : Catalog β) (keyword other : String) (b : β) :
    (c.put keyword b).find? other = if other = keyword then some b else c.find? other :=
  lookup_putEntry keyword other b c.entries

end Catalog
end BlackOil

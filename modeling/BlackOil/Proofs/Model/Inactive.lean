import BlackOil.Proofs.Model.Masking

/-!
# Inactive cells

Nothing in a model depends on what the deck says about inactive cells. Two decks that say
the same of their active cells, with the same cells active, have equal models or are refused
with the same fault: they have the same grid, and on its cells they agree.
-/
namespace BlackOil
variable {α : Type}

namespace Deck
variable [Scalar α]

/-- A cell is active if a deck that has a mask gives it a number other than zero there. -/
def IsActive (deck : Deck α) (cell : Nat) : Prop :=
  ∀ values, deck.array? "ACTNUM" = some values → ∃ n, values.wholes[cell]? = some n ∧ n ≠ 0

/-- Two decks that differ at most in what they say about inactive cells. -/
structure SameOnActive (deck deck' : Deck α) : Prop where
  dimensions_eq : deck.dimensions = deck'.dimensions
  tables_eq : ∀ keyword, deck.tables.find? keyword = deck'.tables.find? keyword
  contains_eq : ∀ keyword, deck.arrays.contains keyword = deck'.arrays.contains keyword
  isActive_iff : ∀ cell, deck.IsActive cell ↔ deck'.IsActive cell
  entry_eq : ∀ {keyword values values'}, keyword ≠ "ACTNUM" →
    deck.arrays.find? keyword = some values → deck'.arrays.find? keyword = some values' →
    ∀ cell, deck.IsActive cell → values.valueAt? cell = values'.valueAt? cell

end Deck

/-- The active cells of the grid of a deck are active in the deck, which has dimensions. -/
theorem CartesianGrid.isActive_of_ofDeck [Scalar α] {deck : Deck α} {g : CartesianGrid}
    (hg : ofDeck deck = .ok g) :
    ∃ d, deck.dimensions = some d ∧ ∀ c ∈ g.active, deck.IsActive c := by
  unfold ofDeck at hg
  cases hd : deck.dimensions with
  | none =>
    rw [hd] at hg
    cases hg
  | some d =>
    rw [hd] at hg
    refine ⟨d, rfl, fun c hc values hm => ?_⟩
    rw [hm] at hg
    have hmask : g.mask = values.mask := mask_of_ofMask hg
    rw [← CellValues.getElem?_mask_iff, ← hmask]
    exact g.mem_active_iff.mp hc

namespace Deck.SameOnActive
variable [Scalar α] {deck deck' : Deck α}

theorem size_eq (h : deck.SameOnActive deck') {d : Dimensions} (hd : deck.dimensions = some d)
    {keyword : String} {values values' : CellValues α} (hv : deck.array? keyword = some values)
    (hv' : deck'.array? keyword = some values') : values.size = values'.size := by
  have hd' : deck'.dimensions = some d := h.dimensions_eq.symm.trans hd
  have hsize : values.size = d.count := deck.size_eq d hd _ (Deck.mem_of_array? hv)
  have hsize' : values'.size = d.count := deck'.size_eq d hd' _ (Deck.mem_of_array? hv')
  rw [hsize, hsize']

/-- The decks have the same keywords. -/
theorem array?_cases (h : deck.SameOnActive deck') (keyword : String) :
    deck.array? keyword = none ∧ deck'.array? keyword = none ∨
      ∃ values values', deck.array? keyword = some values ∧
        deck'.array? keyword = some values' := by
  have hsome : (deck.array? keyword).isSome = (deck'.array? keyword).isSome :=
    h.contains_eq (Text.upper keyword)
  cases hd : deck.array? keyword with
  | none =>
    rw [hd, Option.isSome_none, eq_comm, Option.isSome_eq_false_iff,
      Option.isNone_iff_eq_none] at hsome
    exact .inl ⟨rfl, hsome⟩
  | some values =>
    rw [hd, Option.isSome_some, eq_comm, Option.isSome_iff_exists] at hsome
    obtain ⟨values', hd'⟩ := hsome
    exact .inr ⟨values, values', rfl, hd'⟩

/-- Decks with the same active cells have the same mask, if they have dimensions. -/
theorem mask_eq (h : deck.SameOnActive deck') {d : Dimensions} (hd : deck.dimensions = some d) :
    (deck.array? "ACTNUM").map CellValues.mask = (deck'.array? "ACTNUM").map CellValues.mask := by
  obtain ⟨hm, hm'⟩ | ⟨values, values', hm, hm'⟩ := h.array?_cases "ACTNUM"
  · rw [hm, hm']
  · have hactive : ∀ cell : Nat,
        values.mask[cell]? = some true ↔ values'.mask[cell]? = some true := by
      intro cell
      have hcell := h.isActive_iff cell
      simpa only [IsActive, hm, hm', Option.some.injEq, forall_eq',
        ← CellValues.getElem?_mask_iff] using hcell
    rw [hm, hm', Option.map_some, Option.map_some,
      CellValues.mask_eq_of_forall (h.size_eq hd hm hm') hactive]

/-- The grid of a deck depends on nothing but the cells that are active. -/
theorem ofDeck_eq (h : deck.SameOnActive deck') :
    CartesianGrid.ofDeck deck = CartesianGrid.ofDeck deck' := by
  unfold CartesianGrid.ofDeck
  rw [← h.dimensions_eq]
  cases hd : deck.dimensions with
  | none => rfl
  | some d => exact congrArg (CartesianGrid.ofMask d.toList) (h.mask_eq hd)

/-- On the cells of their grid the decks agree. -/
theorem agree (h : deck.SameOnActive deck') {g : CartesianGrid}
    (hg : CartesianGrid.ofDeck deck = .ok g) : deck.Agree g.active deck' := by
  obtain ⟨d, hd, hactive⟩ := CartesianGrid.isActive_of_ofDeck hg
  refine ⟨h.tables_eq, ?_⟩
  intro keyword hk
  obtain ⟨hm, hm'⟩ | ⟨values, values', hm, hm'⟩ := h.array?_cases keyword
  · exact .inl ⟨hm, hm'⟩
  · have hentry : ∀ c ∈ g.active, values.valueAt? c = values'.valueAt? c :=
      fun c hc => h.entry_eq hk hm hm' c (hactive c hc)
    exact .inr ⟨values, values', hm, hm', h.size_eq hd hm hm', hentry⟩

end Deck.SameOnActive

namespace ReservoirModel
variable [Scalar α]

/-- What a deck says about inactive cells changes neither the model nor the fault for
which the deck is refused. -/
theorem build_eq_of_sameOnActive {deck deck' : Deck α} (h : deck.SameOnActive deck')
    (s : Session α) (config : Config α) :
    build s deck none config = build s deck' none config := by
  have hgrid := h.ofDeck_eq
  unfold build chooseGrid
  rw [← hgrid]
  cases hg : CartesianGrid.ofDeck deck with
  | error fault => rfl
  | ok g =>
    have hassemble := (h.agree hg).assemble_eq
    simp only [Functor.map, Except.map, hassemble]

/-- The row with other values in its masked cell, for which it would be refused if the
cell were active. -/
def strayDeck : Deck Exact where
  arrays := ⟨[("ACTNUM", .whole #[2, 0]), ("PORO", .real #[0.2, -0.3]),
    ("PERMX", .real #[1.0, -2.0]), ("SWAT", .real #[0.2, 7.0]), ("SGAS", .real #[0.0, 7.0]),
    ("PRESSURE", .real #[1e7, -1.0]), ("RS", .real #[0.0, 1e9])], by decide⟩
  tables := rowDeck.tables
  dimensions := some rowDimensions
  size_eq := by decide

/-- With such a mask the first cell alone is active. -/
theorem isActive_iff_eq_zero {deck : Deck Exact} {n : Int} (hn : n ≠ 0)
    (hm : deck.array? "ACTNUM" = some (.whole #[n, 0])) (cell : Nat) :
    deck.IsActive cell ↔ cell = 0 := by
  simp only [Deck.IsActive, hm, Option.some.injEq, forall_eq', CellValues.wholes]
  cases cell with
  | zero => simp [hn]
  | succ cell => cases cell <;> simp

theorem sameOnActive_strayDeck : rowDeck.SameOnActive strayDeck := by
  have hactive : ∀ cell, rowDeck.IsActive cell ↔ cell = 0 :=
    isActive_iff_eq_zero one_ne_zero rfl
  have hactive' : ∀ cell, strayDeck.IsActive cell ↔ cell = 0 :=
    isActive_iff_eq_zero two_ne_zero rfl
  have hentries : ∀ entry ∈ rowDeck.arrays.entries, ∀ entry' ∈ strayDeck.arrays.entries,
      entry.1 = entry'.1 → entry.1 ≠ "ACTNUM" → entry.2.valueAt? 0 = entry'.2.valueAt? 0 := by
    decide +kernel
  refine ⟨rfl, fun keyword => rfl, ?_, fun cell => (hactive cell).trans (hactive' cell).symm, ?_⟩
  · intro keyword
    rw [Bool.eq_iff_iff, Catalog.contains, Catalog.contains, Catalog.find?, Catalog.find?,
      List.lookup_isSome_iff, List.lookup_isSome_iff]
    simp [rowDeck, strayDeck]
  · intro keyword values values' hk hv hv' cell hcell
    rw [(hactive cell).mp hcell]
    have hmem := Catalog.mem_of_find? hv
    have hmem' := Catalog.mem_of_find? hv'
    exact hentries _ hmem _ hmem' rfl hk

theorem build_eq_of_sameOnActive_strayDeck : ∃ m, (build {} rowDeck none rowConfig).1 = .ok m ∧
    (build {} strayDeck none rowConfig).1 = .ok m := by
  have hbuilt : (build {} rowDeck none rowConfig).1.toOption.isSome := by decide +kernel
  obtain ⟨m, hm⟩ := Outcome.exists_ok_of_isSome hbuilt
  have hsame := build_eq_of_sameOnActive sameOnActive_strayDeck {} rowConfig
  exact ⟨m, hm, hsame ▸ hm⟩

end ReservoirModel
end BlackOil

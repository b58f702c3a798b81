import BlackOil.Proofs.Saturation.Region
import BlackOil.Proofs.Saturation.Tables

/-!
# Assigned saturation tables

`SATNUM` numbers the saturation tables from one, the regions count from zero. Through both
shifts every active cell gets the law of the two tables that its own number names. Only a
cell whose number names no table stands in the way, and the first such cell is reported
with its number. Inactive cells play no part.
-/
namespace BlackOil
variable {α : Type} [Scalar α] {deck : Deck α} {t : Topology}

/-- The number of the saturation tables of a cell: that under `SATNUM`, or else the first. -/
def Deck.tableNumber? (deck : Deck α) (cell : Nat) : Option Int :=
  match deck.array? "SATNUM" with
  | none => some 1
  | some values => values.wholes[cell]?

theorem namedRegion?_eq (deck : Deck α) (cell : Nat) :
    deck.namedRegion? cell = (deck.tableNumber? cell).map regionOf := by
  unfold Deck.namedRegion? Deck.tableNumber?
  cases deck.array? "SATNUM" with
  | none => rfl
  | some values => rfl

/-- Numbers above the least word are shifted without wrapping around. -/
theorem regionOf_eq {n : Int} (h : Word.least < n ∧ n < -Word.least) : regionOf n = n - 1 := by
  apply Word.wrap_of_fits
  apply (Word.fits_iff _).mpr
  omega

/-- The active cells lie in the grid, and where the deck has `SATNUM` they have a number
there, a word above the least. -/
structure Topology.IsNumbered (t : Topology) (deck : Deck α) : Prop where
  inside : ∀ c ∈ t.cartesian, 0 ≤ c ∧ c < t.numCartesian
  size : ∀ values ∈ deck.array? "SATNUM", ∀ c ∈ t.cartesian, c < values.wholes.size
  word : ∀ values ∈ deck.array? "SATNUM", ∀ n ∈ values.wholes,
    Word.least < n ∧ n < -Word.least

/-- The number of an active cell names one of `count` tables. -/
def Deck.HasTables (deck : Deck α) (t : Topology) (count active : Nat) : Prop :=
  ∃ (cell : Nat) (n : Int), t.cartesianIndex active = .ok cell ∧
    deck.tableNumber? cell = some n ∧ 1 ≤ n ∧ n ≤ count

namespace Topology.IsNumbered
variable {regions : Array Int} {active count : Nat}

theorem exists_tableNumber (h : t.IsNumbered deck) {cell : Nat}
    (hcell : cell ∈ t.cartesian.map Int.toNat) : ∃ n, deck.tableNumber? cell = some n ∧
      regionOf n = n - 1 := by
  obtain ⟨c, hc, rfl⟩ := Array.mem_map.mp hcell
  have hinside := h.inside c hc
  unfold Deck.tableNumber?
  cases hvalues : deck.array? "SATNUM" with
  | none => exact ⟨1, rfl, rfl⟩
  | some values =>
    have hsize := h.size values hvalues c hc
    have hlt : c.toNat < values.wholes.size := by omega
    refine ⟨_, Array.getElem?_eq_getElem hlt, ?_⟩
    exact regionOf_eq (h.word values hvalues _ (Array.getElem_mem hlt))

theorem isSome_namedRegion? (h : t.IsNumbered deck) :
    ∀ c ∈ t.cartesian.map Int.toNat, (deck.namedRegion? c).isSome := by
  intro c hc
  obtain ⟨n, hn, -⟩ := h.exists_tableNumber hc
  rw [namedRegion?_eq, hn]
  rfl

/-- Only active cells have a region. -/
theorem lt_numActive_of_reads {r : Int}
    (hreads : Reads deck.namedRegion? (t.cartesian.map Int.toNat) regions)
    (hr : regions[active]? = some r) : active < t.numActive := by
  have hlt := (Array.getElem?_eq_some_iff.mp hr).1
  rwa [hreads.size_eq, Array.size_map] at hlt

/-- The region of an active cell is one less than its number. -/
theorem exists_region (h : t.IsNumbered deck)
    (hreads : Reads deck.namedRegion? (t.cartesian.map Int.toNat) regions)
    (hactive : active < t.numActive) : ∃ (cell : Nat) (n : Int),
      t.cartesianIndex active = .ok cell ∧ deck.tableNumber? cell = some n ∧
      regions[active]? = some (n - 1) := by
  have hsize : active < (t.cartesian.map Int.toNat).size := by
    rwa [Array.size_map]
  have hcell := Array.getElem?_eq_getElem hsize
  obtain ⟨n, hn, hregion⟩ := h.exists_tableNumber (Array.getElem_mem hsize)
  refine ⟨_, n, cartesianIndex_of_cells_eq_ok (cells_eq_ok h.inside) hcell, hn, ?_⟩
  rw [hreads.eq_some hcell, namedRegion?_eq, hn, Option.map_some, hregion]

/-- A cell has tables exactly if its region is there. -/
theorem hasTables_iff (h : t.IsNumbered deck)
    (hreads : Reads deck.namedRegion? (t.cartesian.map Int.toNat) regions)
    (hactive : active < t.numActive) : deck.HasTables t count active ↔
      ∀ r, regions[active]? = some r → 0 ≤ r ∧ r < count := by
  obtain ⟨cell, n, hcell, hn, hregion⟩ := h.exists_region hreads hactive
  rw [hregion]
  constructor
  · rintro ⟨cell', n', hcell', hn', hlow, hhigh⟩ r hr
    cases hr
    obtain rfl : cell = cell' := Int.ofNat.inj (Except.ok.inj (hcell.symm.trans hcell'))
    cases hn.symm.trans hn'
    omega
  · intro hr
    have hrange := hr _ rfl
    exact ⟨cell, n, hcell, hn, by omega, by omega⟩

end Topology.IsNumbered

/-- Regions that were found are there, also where none was looked up. -/
theorem range_of_cellRegions_eq_ok {count : Int} {regions : Array Int} (hcount : 0 < count)
    (h : cellRegions deck t count = .ok regions) : ∀ r ∈ regions, 0 ≤ r ∧ r < count := by
  cases hvalues : deck.array? "SATNUM" with
  | none =>
    rw [cellRegions, hvalues] at h
    cases h
    intro r hr
    rw [Array.eq_of_mem_replicate hr]
    exact ⟨le_rfl, hcount⟩
  | some values =>
    have hsteps := h
    rw [cellRegions, hvalues] at hsteps
    obtain ⟨cells, hcells, -⟩ := Outcome.bind_eq_ok_iff.mp hsteps
    apply ((cellRegions_eq_ok_iff_of_cells hcells).mp h).2
    rw [hvalues]
    rfl

/-- Each cell gets the law of its own tables, of which there are as many as `swofs`. -/
structure AssignsOwnTables (deck : Deck α) (t : Topology) (swofs sgofs : List (Table α)) :
    Prop where
  exists_iff : (∃ f, SaturationFunctions.ofDeck deck t = .ok f) ↔
    deck.array? "SATNUM" = none ∨
      ∀ active < t.numActive, deck.HasTables t swofs.length active
  law : ∀ f, SaturationFunctions.ofDeck deck t = .ok f → ∀ active < t.numActive,
    ∃ (cell region : Nat) (swof sgof : Table α) (law : ThreePhaseLaw α),
      t.cartesianIndex active = .ok cell ∧ deck.tableNumber? cell = some ((region : Int) + 1) ∧
      swofs[region]? = some swof ∧ sgofs[region]? = some sgof ∧
      ThreePhaseLaw.ofTables (region + 1) swof sgof = .ok law ∧ f.law active = .ok law
  /-- The second check of the regions never fails. -/
  ofRegions : ∀ laws regions, saturationLaws deck = .ok laws →
    cellRegions deck t laws.length = .ok regions →
      ∃ f, SaturationFunctions.ofRegions laws regions = .ok f
  error : ∀ fault, SaturationFunctions.ofDeck deck t = .error fault →
    ∃ active < t.numActive, ∃ (cell : Nat) (n : Int),
      t.cartesianIndex active = .ok cell ∧ deck.tableNumber? cell = some n ∧
      ¬(1 ≤ n ∧ n ≤ swofs.length) ∧ fault = .regionNumber n active swofs.length ∧
      ∀ before < active, deck.HasTables t swofs.length before

section Laws
variable {laws : List (ThreePhaseLaw α)}

theorem exists_ofRegions {regions : Array Int} (hne : laws ≠ [])
    (h : cellRegions deck t laws.length = .ok regions) :
    SaturationFunctions.ofRegions laws regions = .ok ⟨laws.toArray, regions.map Int.toNat⟩ := by
  have hcount : (0 : Int) < laws.length := by
    have := List.length_pos_iff.mpr hne
    omega
  exact SaturationFunctions.ofRegions_eq_ok_iff.mpr ⟨hne, range_of_cellRegions_eq_ok hcount h, rfl⟩

/-- With laws the functions are found exactly if the regions are. -/
theorem ofDeck_eq_ok_iff_cellRegions (hlaws : saturationLaws deck = .ok laws) (hne : laws ≠ [])
    {f : SaturationFunctions α} : SaturationFunctions.ofDeck deck t = .ok f ↔
      ∃ regions, cellRegions deck t laws.length = .ok regions ∧
        f = ⟨laws.toArray, regions.map Int.toNat⟩ := by
  rw [SaturationFunctions.ofDeck, hlaws, Outcome.ok_bind, Outcome.bind_eq_ok_iff]
  constructor
  · rintro ⟨regions, hregions, hf⟩
    rw [exists_ofRegions hne hregions] at hf
    cases hf
    exact ⟨regions, hregions, rfl⟩
  · rintro ⟨regions, hregions, rfl⟩
    exact ⟨regions, hregions, exists_ofRegions hne hregions⟩

theorem ofDeck_eq_error_iff_cellRegions (hlaws : saturationLaws deck = .ok laws)
    (hne : laws ≠ []) {fault : Fault} : SaturationFunctions.ofDeck deck t = .error fault ↔
      cellRegions deck t laws.length = .error fault := by
  rw [SaturationFunctions.ofDeck, hlaws, Outcome.ok_bind, Outcome.bind_eq_error_iff]
  constructor
  · rintro (h | ⟨regions, hregions, h⟩)
    · exact h
    · rw [exists_ofRegions hne hregions] at h
      cases h
  · exact Or.inl

end Laws

namespace Topology.IsNumbered

/-- Where the deck lacks `SATNUM`, every cell has the first tables. -/
theorem hasTables_of_none (h : t.IsNumbered deck) (hnone : deck.array? "SATNUM" = none)
    {count active : Nat} (hcount : 0 < count) (hactive : active < t.numActive) :
    deck.HasTables t count active := by
  obtain ⟨regions, hreads⟩ := exists_reads_iff.mpr h.isSome_namedRegion?
  obtain ⟨cell, n, hcell, hn, -⟩ := h.exists_region hreads hactive
  have hone : deck.tableNumber? cell = some 1 := by
    rw [Deck.tableNumber?, hnone]
  exact ⟨cell, 1, hcell, hone, le_rfl, by omega⟩

/-- The regions are found exactly if every cell has tables. -/
theorem exists_cellRegions_iff (h : t.IsNumbered deck) {count : Nat} (hcount : 0 < count) :
    (∃ regions, cellRegions deck t count = .ok regions) ↔
      ∀ active < t.numActive, deck.HasTables t count active := by
  have hcells := cells_eq_ok h.inside
  constructor
  · rintro ⟨regions, hregions⟩ active hactive
    have hreads := ((cellRegions_eq_ok_iff_of_cells hcells).mp hregions).1
    apply (h.hasTables_iff hreads hactive).mpr
    intro r hr
    exact range_of_cellRegions_eq_ok (by omega) hregions r (Array.mem_of_getElem? hr)
  · intro hall
    obtain ⟨regions, hreads⟩ := exists_reads_iff.mpr h.isSome_namedRegion?
    refine ⟨regions, (cellRegions_eq_ok_iff_of_cells hcells).mpr ⟨hreads, fun _ r hr => ?_⟩⟩
    obtain ⟨active, hr⟩ := Array.getElem?_of_mem hr
    have hactive := lt_numActive_of_reads hreads hr
    exact (h.hasTables_iff hreads hactive).mp (hall active hactive) r hr

variable {laws : List (ThreePhaseLaw α)}

/-- The functions are found exactly if every cell has tables. -/
theorem exists_ofDeck_iff (h : t.IsNumbered deck) (hlaws : saturationLaws deck = .ok laws)
    (hne : laws ≠ []) : (∃ f, SaturationFunctions.ofDeck deck t = .ok f) ↔
      ∀ active < t.numActive, deck.HasTables t laws.length active := by
  rw [← h.exists_cellRegions_iff (List.length_pos_iff.mpr hne)]
  constructor
  · rintro ⟨f, hf⟩
    obtain ⟨regions, hregions, -⟩ := (ofDeck_eq_ok_iff_cellRegions hlaws hne).mp hf
    exact ⟨regions, hregions⟩
  · rintro ⟨regions, hregions⟩
    exact ⟨_, (ofDeck_eq_ok_iff_cellRegions hlaws hne).mpr ⟨regions, hregions, rfl⟩⟩

/-- The law of a cell is the one that its number counts from one. -/
theorem exists_law (h : t.IsNumbered deck) (hlaws : saturationLaws deck = .ok laws)
    (hne : laws ≠ []) {f : SaturationFunctions α} (hf : SaturationFunctions.ofDeck deck t = .ok f)
    (hactive : active < t.numActive) : ∃ (cell region : Nat) (law : ThreePhaseLaw α),
      t.cartesianIndex active = .ok cell ∧ deck.tableNumber? cell = some ((region : Int) + 1) ∧
      laws[region]? = some law ∧ f.law active = .ok law := by
  obtain ⟨regions, hregions, rfl⟩ := (ofDeck_eq_ok_iff_cellRegions hlaws hne).mp hf
  have hcount := List.length_pos_iff.mpr hne
  have hreads := ((cellRegions_eq_ok_iff_of_cells (cells_eq_ok h.inside)).mp hregions).1
  obtain ⟨cell, n, hcell, hn, hregion⟩ := h.exists_region hreads hactive
  have hrange := range_of_cellRegions_eq_ok (by omega) hregions _
    (Array.mem_of_getElem? hregion)
  -- the number counts from one, the region from zero
  obtain ⟨region, hnumber⟩ := Int.eq_ofNat_of_zero_le hrange.1
  have hlt : region < laws.length := by omega
  have hlaw := List.getElem?_eq_getElem hlt
  refine ⟨cell, region, _, hcell, ?_, hlaw, ?_⟩
  · rw [hn, Option.some.injEq]
    omega
  · refine SaturationFunctions.law_eq_ok (r := region) ?_ (List.getElem?_toArray.trans hlaw)
    rw [Array.getElem?_map, hregion, hnumber]
    rfl

/-- The fault names the first cell without tables. -/
theorem exists_of_ofDeck_eq_error (h : t.IsNumbered deck)
    (hlaws : saturationLaws deck = .ok laws) (hne : laws ≠ []) {fault : Fault}
    (hfault : SaturationFunctions.ofDeck deck t = .error fault) :
    ∃ active < t.numActive, ∃ (cell : Nat) (n : Int),
      t.cartesianIndex active = .ok cell ∧ deck.tableNumber? cell = some n ∧
      ¬(1 ≤ n ∧ n ≤ laws.length) ∧ fault = .regionNumber n active laws.length ∧
      ∀ before < active, deck.HasTables t laws.length before := by
  obtain ⟨active, regions, hreads, r, hr, hout, rfl, hbefore⟩ :=
    exists_of_cellRegions_eq_error (cells_eq_ok h.inside) h.isSome_namedRegion?
      ((ofDeck_eq_error_iff_cellRegions hlaws hne).mp hfault)
  have hactive := lt_numActive_of_reads hreads hr
  obtain ⟨cell, n, hcell, hn, hregion⟩ := h.exists_region hreads hactive
  obtain rfl : n - 1 = r := Option.some.inj (hregion.symm.trans hr)
  refine ⟨active, hactive, cell, n, hcell, hn, by omega, ?_, ?_⟩
  · rw [Int.sub_add_cancel]
  · intro before hlt
    exact (h.hasTables_iff hreads (hlt.trans hactive)).mpr (hbefore before hlt)

end Topology.IsNumbered

/-- Each cell gets the law of its own tables whenever the laws can be built. -/
theorem exists_assignsOwnTables {laws : List (ThreePhaseLaw α)}
    (hlaws : saturationLaws deck = .ok laws) (h : t.IsNumbered deck) : ∃ swofs sgofs,
      deck.tables.find? (Text.upper "SWOF") = some swofs ∧
      deck.tables.find? (Text.upper "SGOF") = some sgofs ∧
      AssignsOwnTables deck t swofs sgofs := by
  obtain ⟨swofs, sgofs, hswofs, hsgofs, hne, hlength, htables⟩ :=
    exists_tables_of_saturationLaws hlaws
  refine ⟨swofs, sgofs, hswofs, hsgofs, ?_⟩
  constructor
  case exists_iff =>
    rw [← hlength, h.exists_ofDeck_iff hlaws hne]
    refine ⟨Or.inr, ?_⟩
    rintro (hnone | hall)
    · exact fun active hactive =>
        h.hasTables_of_none hnone (List.length_pos_iff.mpr hne) hactive
    · exact hall
  case law =>
    intro f hf active hactive
    obtain ⟨cell, region, law, hcell, hn, hlaw, hassigned⟩ := h.exists_law hlaws hne hf hactive
    obtain ⟨swof, sgof, hswof, hsgof, hbuilt⟩ := htables region law hlaw
    exact ⟨cell, region, swof, sgof, law, hcell, hn, hswof, hsgof, hbuilt, hassigned⟩
  case ofRegions =>
    intro laws' regions hlaws' hregions
    cases hlaws.symm.trans hlaws'
    exact ⟨_, exists_ofRegions hne hregions⟩
  case error =>
    rw [← hlength]
    exact fun fault => h.exists_of_ofDeck_eq_error hlaws hne

/-- Three cells, of which the one that is not active has a number without tables. -/
def numberedRegions : Deck Exact where
  arrays := ⟨[("SATNUM", .whole #[2, 7, 1])], by decide⟩
  tables := twoRegions.tables

theorem array?_numberedRegions :
    numberedRegions.array? "SATNUM" = some (.whole #[2, 7, 1]) := by
  have hupper : Text.upper "SATNUM" = "SATNUM" := by decide
  rw [Deck.array?, hupper]
  rfl

theorem exists_assignsOwnTables_two : ∃ laws swofs sgofs,
    saturationLaws numberedRegions = .ok laws ∧
      Topology.IsNumbered ⟨3, #[2, 0], .ok []⟩ numberedRegions ∧
      AssignsOwnTables numberedRegions ⟨3, #[2, 0], .ok []⟩ swofs sgofs := by
  have hbuilt : (saturationLaws numberedRegions).toOption.isSome := by decide +kernel
  obtain ⟨laws, hlaws⟩ := Outcome.exists_ok_of_isSome hbuilt
  have hnumbered : Topology.IsNumbered ⟨3, #[2, 0], .ok []⟩ numberedRegions := by
    constructor
    case inside => decide
    case size =>
      intro values hvalues
      cases array?_numberedRegions.symm.trans hvalues
      decide
    case word =>
      intro values hvalues
      cases array?_numberedRegions.symm.trans hvalues
      decide
  obtain ⟨swofs, sgofs, -, -, hassigns⟩ := exists_assignsOwnTables hlaws hnumbered
  exact ⟨laws, swofs, sgofs, hlaws, hnumbered, hassigns⟩

end BlackOil

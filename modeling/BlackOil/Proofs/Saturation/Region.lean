import BlackOil.Proofs.Grid.Gather
import BlackOil.Saturation.Region

/-!
# Saturation regions of cells

What a deck says about the saturation region of one cartesian cell. The regions of a grid
are found exactly if every active cell has one of those that are there.
-/
namespace BlackOil
variable {α : Type} [Scalar α]

/-- The region that a deck names for a cell. -/
def Deck.namedRegion? (deck : Deck α) (cell : Nat) : Option Int :=
  match deck.array? "SATNUM" with
  | none => some 0
  | some values => values.wholes[cell]?.map regionOf

/-- The region of a cell, one of `count`. -/
def Deck.region? (deck : Deck α) (count : Int) (cell : Nat) : Option Int :=
  (deck.namedRegion? cell).filter fun r => 0 ≤ r && r < count

theorem reads_namedRegion?_iff {deck : Deck α} {values : CellValues α}
    (h : deck.array? "SATNUM" = some values) {cells : Array Nat} {out : Array Int} :
    Reads deck.namedRegion? cells out ↔
      ∃ numbers, gather "SATNUM" values.wholes cells = .ok numbers ∧
        out = numbers.map regionOf := by
  have hf : deck.namedRegion? = fun c => (values.wholes[c]?).map regionOf := by
    funext c
    simp [Deck.namedRegion?, h]
  simp only [hf, reads_map_iff, gather_eq_ok_iff]

theorem reads_region?_iff {deck : Deck α} {count : Int} {cells : Array Nat} {out : Array Int} :
    Reads (deck.region? count) cells out ↔
      Reads deck.namedRegion? cells out ∧ ∀ r ∈ out, 0 ≤ r ∧ r < count := by
  have hregion : deck.region? count =
      fun c => (deck.namedRegion? c).filter fun r => 0 ≤ r && r < count := rfl
  simp [hregion, reads_filter_iff]

section Topologies
variable {deck : Deck α} {t : Topology} {cells : Array Nat} {count : Int} {out : Array Int}

/-- The regions are those that the deck names for the cells of a topology. Numbers under
`SATNUM` are checked. -/
theorem cellRegions_eq_ok_iff_of_cells (hcells : t.cells = .ok cells) :
    cellRegions deck t count = .ok out ↔ Reads deck.namedRegion? cells out ∧
      ((deck.array? "SATNUM").isSome → ∀ r ∈ out, 0 ≤ r ∧ r < count) := by
  unfold cellRegions
  cases h : deck.array? "SATNUM" with
  | none =>
    have hzero : deck.namedRegion? = fun _ => some 0 := by
      funext c
      simp [Deck.namedRegion?, h]
    have hreads : Reads deck.namedRegion? cells (Array.replicate t.numActive 0) := by
      rw [hzero, Reads, Array.map_replicate, Array.map_const',
        Topology.size_of_cells_eq_ok hcells]
    simp only [Except.ok.injEq, Option.isSome_none, Bool.false_eq_true, false_implies, and_true]
    constructor
    · intro ho
      exact ho ▸ hreads
    · intro ho
      exact hreads.unique ho
  | some values =>
    simp only [Outcome.bind_eq_ok_iff, hcells, Except.ok.injEq, exists_eq_left',
      reads_namedRegion?_iff h, Option.isSome_some, true_implies]
    constructor
    · intro ho
      obtain ⟨numbers, hn, ho⟩ := ho
      split at ho
      · cases ho
      · rename_i hnone
        cases ho
        refine ⟨⟨numbers, hn, rfl⟩, fun r hr => ?_⟩
        have := Array.findIdx?_eq_none_iff.mp hnone r hr
        simp only [Bool.or_eq_false_iff, decide_eq_false_iff_not] at this
        omega
    · intro ho
      obtain ⟨⟨numbers, hn, rfl⟩, hr⟩ := ho
      refine ⟨numbers, hn, ?_⟩
      have hnone : (numbers.map regionOf).findIdx? (fun r => r < 0 || count ≤ r) = none := by
        rw [Array.findIdx?_eq_none_iff]
        intro r hm
        have := hr r hm
        simp only [Bool.or_eq_false_iff, decide_eq_false_iff_not]
        omega
      rw [hnone]
      rfl

/-- Where the deck names a region for every cell, the first cell whose region is not there is
at fault. -/
theorem exists_of_cellRegions_eq_error (hcells : t.cells = .ok cells)
    (hnamed : ∀ c ∈ cells, (deck.namedRegion? c).isSome) {fault : Fault}
    (h : cellRegions deck t count = .error fault) : ∃ active regions,
      Reads deck.namedRegion? cells regions ∧
      ∃ r, regions[active]? = some r ∧ ¬(0 ≤ r ∧ r < count) ∧
        fault = .regionNumber (r + 1) active count ∧
        ∀ before < active, ∀ r', regions[before]? = some r' → 0 ≤ r' ∧ r' < count := by
  unfold cellRegions at h
  cases hvalues : deck.array? "SATNUM" with
  | none =>
    rw [hvalues] at h
    cases h
  | some values =>
    simp only [hvalues, hcells, Outcome.ok_bind] at h
    rcases Outcome.bind_eq_error_iff.mp h with hgather | ⟨numbers, hgather, h⟩
    · obtain ⟨⟨c, hc, hsize⟩, -⟩ := gather_eq_error_iff.mp hgather
      have hsome := hnamed c hc
      rw [Deck.namedRegion?, hvalues] at hsome
      simp [Nat.not_lt.mpr hsize] at hsome
    · have hreads := (reads_namedRegion?_iff hvalues).mpr ⟨numbers, hgather, rfl⟩
      generalize numbers.map regionOf = regions at h hreads
      split at h
      · rename_i active hfind
        obtain ⟨hlt, hout, hbefore⟩ := Array.findIdx?_eq_some_iff_getElem.mp hfind
        have hr := Array.getElem?_eq_getElem hlt
        rw [Array.getD_eq_getD_getElem?, hr, Option.getD_some] at h
        cases h
        refine ⟨active, regions, hreads, _, hr, ?_, rfl, ?_⟩
        · simp only [Bool.or_eq_true, decide_eq_true_eq] at hout
          omega
        · intro before hlt' r' hr'
          have hnot := hbefore before hlt'
          obtain ⟨hsize, rfl⟩ := Array.getElem?_eq_some_iff.mp hr'
          simp only [Bool.or_eq_true, decide_eq_true_eq] at hnot
          omega
      · cases h

end Topologies

theorem size_of_cellRegions_eq_ok {deck : Deck α} {t : Topology} {count : Int}
    {regions : Array Int} (h : cellRegions deck t count = .ok regions) :
    regions.size = t.numActive := by
  unfold cellRegions at h
  split at h
  · cases h
    exact Array.size_replicate
  · simp only [Outcome.bind_eq_ok_iff, gather_eq_ok_iff] at h
    obtain ⟨cells, hcells, numbers, hnumbers, h⟩ := h
    split at h
    · cases h
    · cases h
      rw [Array.size_map, hnumbers.size_eq, Topology.size_of_cells_eq_ok hcells]

namespace SaturationFunctions

omit [Scalar α] in
theorem region_eq_ok {f : SaturationFunctions α} {a r : Nat} (h : f.regions[a]? = some r) :
    f.region a = .ok r := by
  rw [region, getElem?_natCast, h]

omit [Scalar α] in
theorem law_eq_ok {f : SaturationFunctions α} {a r : Nat} {cellLaw : ThreePhaseLaw α}
    (h : f.regions[a]? = some r) (hlaw : f.laws[r]? = some cellLaw) : f.law a = .ok cellLaw := by
  rw [law, region_eq_ok h]
  simp [bind, Except.bind, hlaw]

omit [Scalar α] in
theorem ofRegions_eq_ok_iff {laws : List (ThreePhaseLaw α)} {regions : Array Int}
    {f : SaturationFunctions α} : ofRegions laws regions = .ok f ↔
      laws ≠ [] ∧ (∀ r ∈ regions, 0 ≤ r ∧ r < laws.length) ∧
        f = ⟨laws.toArray, regions.map Int.toNat⟩ := by
  have hany : (regions.any fun r => r < 0 || (laws.length : Int) ≤ r) = false ↔
      ∀ r ∈ regions, 0 ≤ r ∧ r < laws.length := by
    simp only [Array.any_eq_false', Bool.or_eq_true, decide_eq_true_eq]
    constructor
    · intro h r hr
      have := h r hr
      omega
    · intro h r hr
      have := h r hr
      omega
  unfold ofRegions
  by_cases hl : laws = []
  · simp [hl]
  · rw [if_neg (by simpa using hl), ← hany]
    split
    · rename_i hout
      simp [hout]
    · rename_i hin
      rw [Bool.not_eq_true] at hin
      rw [Except.ok.injEq]
      exact ⟨fun h => ⟨hl, hin, h.symm⟩, fun h => h.2.2.symm⟩

/-- The functions of a topology have the region that the deck gives to each active cell. -/
theorem ofDeck_eq_ok_iff_of_cells {deck : Deck α} {t : Topology} {cells : Array Nat}
    (hcells : t.cells = .ok cells) {f : SaturationFunctions α} :
    ofDeck deck t = .ok f ↔
      ∃ laws regions, saturationLaws deck = .ok laws ∧ laws ≠ [] ∧
        Reads (deck.region? laws.length) cells regions ∧
        f = ⟨laws.toArray, regions.map Int.toNat⟩ := by
  simp only [ofDeck, Outcome.bind_eq_ok_iff, cellRegions_eq_ok_iff_of_cells hcells,
    ofRegions_eq_ok_iff, reads_region?_iff]
  constructor
  · intro h
    obtain ⟨laws, hlaws, regions, ⟨hr, -⟩, hne, hin, rfl⟩ := h
    exact ⟨laws, regions, hlaws, hne, ⟨hr, hin⟩, rfl⟩
  · intro h
    obtain ⟨laws, regions, hlaws, hne, ⟨hr, hin⟩, rfl⟩ := h
    exact ⟨laws, hlaws, regions, ⟨hr, fun _ => hin⟩, hne, hin, rfl⟩

/-- The same of a grid. -/
theorem ofDeck_eq_ok_iff {deck : Deck α} {g : CartesianGrid} {f : SaturationFunctions α} :
    ofDeck deck g.topology = .ok f ↔
      ∃ laws regions, saturationLaws deck = .ok laws ∧ laws ≠ [] ∧
        Reads (deck.region? laws.length) g.active regions ∧
        f = ⟨laws.toArray, regions.map Int.toNat⟩ :=
  ofDeck_eq_ok_iff_of_cells g.topology_cells

/-- Every region has a law. -/
theorem exists_law {deck : Deck α} {g : CartesianGrid} {f : SaturationFunctions α}
    (h : ofDeck deck g.topology = .ok f) {r : Nat} (hr : r ∈ f.regions) :
    ∃ law, f.laws[r]? = some law := by
  obtain ⟨laws, regions, -, -, hregions, rfl⟩ := ofDeck_eq_ok_iff.mp h
  obtain ⟨r', hr', rfl⟩ := Array.mem_map.mp hr
  obtain ⟨c, -, hc⟩ := hregions.exists_of_mem hr'
  have hlt := (Option.filter_eq_some_iff.mp hc).2
  simp only [Bool.and_eq_true, decide_eq_true_eq] at hlt
  have hsize : r'.toNat < laws.toArray.size := by
    rw [List.size_toArray]
    omega
  exact ⟨_, Array.getElem?_eq_getElem hsize⟩

/-- Every active cell of a topology has the law of a region. -/
theorem exists_law_of_ofDeck {deck : Deck α} {t : Topology} {f : SaturationFunctions α}
    (h : ofDeck deck t = .ok f) {active : Int} (hactive : 0 ≤ active ∧ active < t.numActive) :
    ∃ (laws : List (ThreePhaseLaw α)) (r : Nat) (cellLaw : ThreePhaseLaw α),
      saturationLaws deck = .ok laws ∧ laws[r]? = some cellLaw ∧
        f.region active = .ok r ∧ f.law active = .ok cellLaw := by
  simp only [ofDeck, Outcome.bind_eq_ok_iff, ofRegions_eq_ok_iff] at h
  obtain ⟨laws, hlaws, regions, hregions, -, hin, rfl⟩ := h
  have hsize := size_of_cellRegions_eq_ok hregions
  obtain ⟨a, rfl⟩ := Int.eq_ofNat_of_zero_le hactive.1
  have ha : a < regions.size := by omega
  have hbounds := hin _ (Array.getElem_mem ha)
  have hlt : regions[a].toNat < laws.length := by omega
  have hr : (regions.map Int.toNat)[a]? = some regions[a].toNat := by
    rw [Array.getElem?_map, Array.getElem?_eq_getElem ha, Option.map_some]
  have hlaw : laws[regions[a].toNat]? = some laws[regions[a].toNat] :=
    List.getElem?_eq_getElem hlt
  exact ⟨laws, _, _, hlaws, hlaw, region_eq_ok hr,
    law_eq_ok hr (List.getElem?_toArray.trans hlaw)⟩

end SaturationFunctions
end BlackOil

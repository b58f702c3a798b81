import BlackOil.Proofs.Model.Agreement
import BlackOil.Proofs.Permeability.Face
import BlackOil.Proofs.Saturation.Region
import BlackOil.Proofs.State.Initial
import BlackOil.Scalar.Exact

/-!
# Masked models

A mask takes cells out of a model and leaves the others as they are. Every stage of a
model asks the deck about one cartesian cell at a time, except the faces, which depend on
pairs of adjacent cells. A stage that succeeds for all cells of the box therefore succeeds
for those that a mask leaves, with the same answers.
-/
namespace BlackOil
variable {α : Type}

/-- The catalog without a keyword. -/
def Catalog.erase {β : Type} (c : Catalog β) (keyword : String) : Catalog β where
  entries := c.entries.filter fun entry => entry.1 ≠ keyword
  nodup := c.nodup.sublist (List.filter_sublist.map Prod.fst)

theorem Catalog.find?_erase {β : Type} (c : Catalog β) (keyword other : String) :
    (c.erase keyword).find? other = if other = keyword then none else c.find? other := by
  have hlookup : ∀ entries : List (String × β),
      (entries.filter fun entry => entry.1 ≠ keyword).lookup other =
        if other = keyword then none else entries.lookup other := by
    intro entries
    induction entries with
    | nil => simp
    | cons entry entries ih =>
      obtain ⟨first, b⟩ := entry
      by_cases hk : first = keyword
      · rw [List.filter_cons_of_neg (by simp [hk]), ih, List.lookup_cons]
        by_cases ho : other = keyword
        · simp [ho]
        · simp [hk, beq_false_of_ne ho]
      · rw [List.filter_cons_of_pos (by simp [hk]), List.lookup_cons, List.lookup_cons, ih]
        by_cases ho : other = keyword
        · simp [ho, beq_false_of_ne (Ne.symm hk)]
        · simp [ho]
  exact hlookup c.entries

namespace Deck

/-- The deck without the cell values of a keyword. -/
def without (deck : Deck α) (keyword : String) : Deck α where
  arrays := deck.arrays.erase keyword
  tables := deck.tables
  dimensions := deck.dimensions
  size_eq d hd entry he := deck.size_eq d hd entry (List.mem_of_mem_filter he)

variable {deck : Deck α} {keyword other : String}

theorem array?_without (h : Text.upper other ≠ keyword) :
    (deck.without keyword).array? other = deck.array? other :=
  (Catalog.find?_erase deck.arrays keyword _).trans (if_neg h)

theorem array?_without_self (h : Text.upper other = keyword) :
    (deck.without keyword).array? other = none :=
  (Catalog.find?_erase deck.arrays keyword _).trans (if_pos h)

end Deck

/-- A deck agrees with itself without its mask. -/
theorem Deck.agree_without (deck : Deck α) (cells : Array Nat) :
    (deck.without "ACTNUM").Agree cells deck := by
  refine ⟨fun keyword => rfl, ?_⟩
  intro keyword hk
  rw [Deck.array?_without hk]
  cases deck.array? keyword with
  | none => exact .inl ⟨rfl, rfl⟩
  | some values => exact .inr ⟨values, values, rfl, rfl, rfl, fun c _ => rfl⟩

/-- No stage of a model reads the mask; only the grid does. -/
theorem assemble_without [Scalar α] {s : Session α} {deck : Deck α} {g : CartesianGrid}
    {config : Config α} : ReservoirModel.assemble s (deck.without "ACTNUM") g.topology config =
      ReservoirModel.assemble s deck g.topology config :=
  (deck.agree_without g.active).assemble_eq s config

namespace Reads
variable {β γ : Type} {cells : Array Nat} {out part : Array β}

/-- Where the values of a function can be read in some cells, they can be read in fewer. -/
theorem restrict {f : Nat → Option β} {all : Array Nat} (h : Reads f all out)
    (hsub : ∀ c ∈ cells, all[c]? = some c) :
    ∃ part, Reads f cells part ∧ Reads (out[·]?) cells part := by
  obtain ⟨part, hp⟩ := exists_reads_iff.mpr fun c hc =>
    h.isSome_of_mem (Array.mem_of_getElem? (hsub c hc))
  exact ⟨part, hp, hp.congr fun c hc => (h.eq_some (hsub c hc)).symm⟩

theorem mem_of_mem (h : Reads (out[·]?) cells part) {b : β} (hb : b ∈ part) : b ∈ out := by
  obtain ⟨c, -, hc⟩ := h.exists_of_mem hb
  exact Array.mem_of_getElem? hc

theorem map_values (k : β → γ) (h : Reads (out[·]?) cells part) :
    Reads ((out.map k)[·]?) cells (part.map k) :=
  (h.map k).congr fun _ _ => Array.getElem?_map.symm

/-- A cell has the same value in the part as in the whole. -/
theorem exists_value (h : Reads (out[·]?) cells part) {a c : Nat} (hc : cells[a]? = some c) :
    ∃ b, part[a]? = some b ∧ out[c]? = some b := by
  obtain ⟨b, hout, hpart⟩ := h.exists_entry hc
  exact ⟨b, hpart, hout⟩

end Reads

namespace CartesianGrid
variable [Scalar α] {deck : Deck α} {d : Dimensions} {g : CartesianGrid}

/-- A deck with dimensions has a grid, since a mask has as many values as there are cells. -/
theorem exists_ofDeck (hd : deck.dimensions = some d) (hfits : Word.fits d.count) :
    ∃ g, ofDeck deck = .ok g ∧ g.dimensions = d ∧ g.Complete ∧
      (deck.array? "ACTNUM" = none → g.mask = List.replicate d.count true) := by
  have hlength : ∀ m ∈ (deck.array? "ACTNUM").map CellValues.mask, m.length = d.count := by
    intro m hm
    obtain ⟨values, hv, rfl⟩ := Option.map_eq_some_iff.mp hm
    rw [CellValues.length_mask]
    exact deck.size_eq d hd _ (Deck.mem_of_array? hv)
  obtain ⟨g, hg, rfl, hmask⟩ := exists_ofMask hfits hlength
  refine ⟨g, ?_, rfl, ofMask_complete hg hfits, fun hnone => ?_⟩
  · rw [ofDeck, hd]
    exact hg
  · rw [hmask, hnone]
    rfl

/-- Without a mask every cell is active under its own index. -/
theorem active_of_mask_eq_replicate {count : Nat} (hm : g.mask = List.replicate count true)
    {c : Nat} (hc : c < count) : g.active[c]? = some c := by
  rw [active_getElem?, hm, activeFrom_replicate, List.getElem?_range' hc]
  simp

/-- Two grids of one box of which the second has all cells of the first, under their own
indices. -/
structure Masks (g all : CartesianGrid) : Prop where
  complete : g.Complete
  complete_all : all.Complete
  dimensions_eq : g.dimensions = all.dimensions
  active_all : ∀ c ∈ g.active, all.active[c]? = some c

namespace Masks
variable {all : CartesianGrid} {deck : Deck α} {precision : Precision}

theorem location_eq (h : g.Masks all) (cell : Int) : g.location cell = all.location cell := by
  rw [location, location, h.dimensions_eq]

theorem cellPorosities (h : g.Masks all) {values : Array α}
    (hall : BlackOil.cellPorosities precision deck all.topology = .ok values) :
    ∃ part, BlackOil.cellPorosities precision deck g.topology = .ok part ∧
      Reads (values[·]?) g.active part := by
  simp only [cellPorosities_eq_ok_iff, topology_cells, Except.ok.injEq, exists_and_left,
    exists_eq_left'] at hall ⊢
  obtain ⟨hk, porosities, hr, hsign, rfl⟩ := hall
  obtain ⟨part, hp, hpart⟩ := hr.restrict h.active_all
  exact ⟨_, ⟨hk, part, hp, fun x hx => hsign x (hpart.mem_of_mem hx), rfl⟩,
    hpart.map_values precision.cast⟩

theorem cellPermeabilities (h : g.Masks all) {values : Array (Tensor α)}
    (hall : BlackOil.cellPermeabilities precision deck all.topology = .ok values) :
    ∃ part, BlackOil.cellPermeabilities precision deck g.topology = .ok part ∧
      Reads (values[·]?) g.active part := by
  simp only [cellPermeabilities_eq_ok_iff, topology_cells, Except.ok.injEq, exists_and_left,
    exists_eq_left'] at hall ⊢
  obtain ⟨hk, diagonals, hr, rfl⟩ := hall
  obtain ⟨part, hp, hpart⟩ := hr.restrict h.active_all
  exact ⟨_, ⟨hk, part, hp, rfl⟩, hpart.map_values _⟩

theorem saturationFunctions (h : g.Masks all) {f : SaturationFunctions α}
    (hall : SaturationFunctions.ofDeck deck all.topology = .ok f) :
    ∃ part, SaturationFunctions.ofDeck deck g.topology = .ok part ∧ part.laws = f.laws ∧
      Reads (f.regions[·]?) g.active part.regions := by
  simp only [SaturationFunctions.ofDeck_eq_ok_iff] at hall ⊢
  obtain ⟨laws, regions, hl, hne, hr, rfl⟩ := hall
  obtain ⟨part, hp, hpart⟩ := hr.restrict h.active_all
  exact ⟨_, ⟨laws, part, hl, hne, hp, rfl⟩, rfl, hpart.map_values Int.toNat⟩

theorem initialStates (h : g.Masks all) {floor : α} {fluids : FluidSystem α} {config : Config α}
    {s : InitialStates α}
    (hall : BlackOil.initialStates precision floor deck all.topology fluids config = .ok s) :
    ∃ part, BlackOil.initialStates precision floor deck g.topology fluids config = .ok part ∧
      Reads (s.cells[·]?) g.active part.cells := by
  simp only [initialStates_eq_ok_iff, topology_cells, Except.ok.injEq, exists_eq_left'] at hall ⊢
  obtain ⟨hk, m, hm, -, hr⟩ := hall
  obtain ⟨part, hp, hpart⟩ := hr.restrict h.active_all
  exact ⟨⟨precision, part⟩, ⟨hk, m, hm, rfl, hp⟩, hpart⟩

/-- The multipliers of a cell do not depend on the other cells. -/
theorem factor_eq (h : g.Masks all) {m m' : FaceMultipliers α}
    (hm : FaceMultipliers.ofDeck deck g.topology = .ok m)
    (hm' : FaceMultipliers.ofDeck deck all.topology = .ok m') (d : Direction) {a c : Nat}
    (hc : g.active[a]? = some c) : m.factor d a = m'.factor d c := by
  simp only [FaceMultipliers.ofDeck_eq_ok_iff, topology_cells, Except.ok.injEq,
    exists_eq_left'] at hm hm'
  have hself := FaceMultipliers.factor_eq hm.1 hm.2 d hc
  have hall := FaceMultipliers.factor_eq hm'.1 hm'.2 d
    (h.active_all c (Array.mem_of_getElem? hc))
  exact Option.some.inj (hself.symm.trans hall)

section
variable {m m' : FaceMultipliers α} {cells cells' : Array (Tensor α)} {a b c e : Nat}

theorem visitedTensor_eq (h : g.Masks all) (hm : FaceMultipliers.ofDeck deck g.topology = .ok m)
    (hm' : FaceMultipliers.ofDeck deck all.topology = .ok m')
    (hcells : Reads (cells'[·]?) g.active cells)
    (hc : g.active[a]? = some c) (he : g.active[b]? = some e) (d : Direction) :
    visitedTensor m cells ⟨a, b, d⟩ = visitedTensor m' cells' ⟨c, e, d⟩ := by
  simp only [visitedTensor, Int.toNat_natCast, Array.getD_eq_getD_getElem?, hcells.eq_some hc,
    hcells.eq_some he, h.factor_eq hm hm' d hc, h.factor_eq hm hm' d.opposite he]

/-- Two cells share the same face in both grids, although its keys may differ. -/
theorem find?_faceStore_eq (h : g.Masks all)
    (hm : FaceMultipliers.ofDeck deck g.topology = .ok m)
    (hm' : FaceMultipliers.ofDeck deck all.topology = .ok m')
    (hcells : Reads (cells'[·]?) g.active cells)
    (hc : g.active[a]? = some c) (he : g.active[b]? = some e) :
    (g.faceStore precision m cells).find? a b =
      (all.faceStore precision m' cells').find? c e := by
  have hc' := h.active_all c (Array.mem_of_getElem? hc)
  have he' := h.active_all e (Array.mem_of_getElem? he)
  by_cases hadj : (g.location c).Adjacent (g.location e)
  · obtain ⟨axis, hloc | hloc⟩ := Direction.exists_axis_of_adjacent hadj
    · rw [find?_faceStore h.complete.within hc he hloc,
        h.visitedTensor_eq hm hm' hcells hc he ⟨axis, true⟩]
      rw [h.location_eq, h.location_eq] at hloc
      rw [find?_faceStore h.complete_all.within hc' he' hloc]
    · rw [FaceStore.find?_comm, find?_faceStore h.complete.within he hc hloc,
        h.visitedTensor_eq hm hm' hcells he hc ⟨axis, true⟩]
      rw [h.location_eq, h.location_eq] at hloc
      rw [FaceStore.find?_comm, find?_faceStore h.complete_all.within he' hc' hloc]
  · rw [find?_faceStore_eq_none h.complete.within hc he hadj]
    rw [h.location_eq, h.location_eq] at hadj
    rw [find?_faceStore_eq_none h.complete_all.within hc' he' hadj]

end

theorem facePermeabilities (h : g.Masks all) {cells cells' : Array (Tensor α)}
    {store : FaceStore α}
    (hcells : BlackOil.cellPermeabilities precision deck g.topology = .ok cells)
    (hcells' : BlackOil.cellPermeabilities precision deck all.topology = .ok cells')
    (hget : Reads (cells'[·]?) g.active cells)
    (hall : BlackOil.facePermeabilities precision deck all.topology cells' = .ok store) :
    ∃ part, BlackOil.facePermeabilities precision deck g.topology cells = .ok part ∧
      ∀ a b c e : Nat, g.active[a]? = some c → g.active[b]? = some e →
        part.find? a b = store.find? c e := by
  rw [facePermeabilities_eq h.complete_all (size_cellPermeabilities hcells'),
    Outcome.map_eq_ok_iff] at hall
  obtain ⟨m', hm', rfl⟩ := hall
  have hread : ∀ d : Direction, ∀ c ∈ g.active, (deck.factor? d.multiplier c).isSome :=
    fun d c hc => exists_ofDeck_iff.mp ⟨m', hm'⟩ d c (Array.mem_of_getElem? (h.active_all c hc))
  obtain ⟨m, hm⟩ := exists_ofDeck_iff.mpr hread
  rw [facePermeabilities_eq h.complete (size_cellPermeabilities hcells), hm]
  exact ⟨_, rfl, fun a b c e hc he => h.find?_faceStore_eq hm hm' hget hc he⟩

end Masks
end CartesianGrid

namespace ReservoirModel
variable [Scalar α]

/-- The cells of a model are cells of another one, with the same properties. There they are
found under their cartesian indices. -/
structure Restricts (m all : ReservoirModel α) : Prop where
  cells : ∀ a : Nat, a < m.numActive → ∃ c : Nat, m.grid.cartesianIndex a = .ok c ∧
    all.grid.cartesianIndex c = .ok c ∧
    (∃ x, m.porosity a = .ok x ∧ all.porosity c = .ok x) ∧
    (∃ k, m.permeability a = .ok k ∧ all.permeability c = .ok k) ∧
    (∃ r, m.saturationFunctions.region a = .ok r ∧ all.saturationFunctions.region c = .ok r) ∧
    (∃ law, m.law a = .ok law ∧ all.law c = .ok law) ∧
    ∃ state, m.initialState a = .ok state ∧ all.initialState c = .ok state
  faces : ∀ a b : Nat, a < m.numActive → b < m.numActive → ∀ c e : Nat,
    m.grid.cartesianIndex a = .ok c → m.grid.cartesianIndex b = .ok e →
      ∀ k, m.facePermeability a b = .ok k ↔ all.facePermeability c e = .ok k

/-- A model is assembled on the topology chosen, with the constants of its configuration. -/
theorem build_eq_ok_iff_assemble {s : Session α} {deck : Deck α} {grid : Option Topology}
    {config : Config α} {m : ReservoirModel α} : (build s deck grid config).1 = .ok m ↔
      ∃ t, chooseGrid deck grid = .ok t ∧
        assemble (s.enter (.given config.constants)) deck t config = .ok m := by
  unfold build
  cases chooseGrid deck grid with
  | error fault => simp
  | ok t => simp [Session.within]

/-- The stages of a model have been built one from the other, with the constants and the
precision of a session. -/
structure IsAssembled (m : ReservoirModel α) (s : Session α) (deck : Deck α) : Prop where
  precision : m.precision = s.precision
  fluidSystem :
    FluidSystem.ofDeck s.constants deck (m.config.molarMasses.map some) = .ok m.fluidSystem
  porosities : BlackOil.cellPorosities m.precision deck m.grid = .ok m.porosities
  cellPermeabilities :
    BlackOil.cellPermeabilities m.precision deck m.grid = .ok m.cellPermeabilities
  facePermeabilities : BlackOil.facePermeabilities m.precision deck m.grid m.cellPermeabilities =
    .ok m.facePermeabilities
  saturationFunctions : SaturationFunctions.ofDeck deck m.grid = .ok m.saturationFunctions
  initialStates : BlackOil.initialStates m.precision s.constants.floor deck m.grid m.fluidSystem
    m.config = .ok m.initialStates

theorem isAssembled_of_assemble {s : Session α} {deck : Deck α} {t : Topology}
    {config : Config α} {m : ReservoirModel α} (h : assemble s deck t config = .ok m) :
    m.grid = t ∧ m.config = config ∧ m.IsAssembled s deck := by
  simp only [assemble, Outcome.bind_eq_ok_iff, Outcome.pure_eq_ok_iff] at h
  obtain ⟨_, hfluids, _, hporosities, _, hcells, _, hfaces, _, hfunctions, _, hstates, rfl⟩ := h
  exact ⟨rfl, rfl, rfl, hfluids, hporosities, hcells, hfaces, hfunctions, hstates⟩

theorem isAssembled_of_build {s : Session α} {deck : Deck α} {grid : Option Topology}
    {config : Config α} {m : ReservoirModel α} (h : (build s deck grid config).1 = .ok m) :
    chooseGrid deck grid = .ok m.grid ∧ m.config = config ∧
      m.IsAssembled (s.enter (.given config.constants)) deck := by
  obtain ⟨t, hgrid, h⟩ := build_eq_ok_iff_assemble.mp h
  obtain ⟨rfl, rfl, hstages⟩ := isAssembled_of_assemble h
  exact ⟨hgrid, rfl, hstages⟩

theorem build_eq_ok_iff {s : Session α} {deck : Deck α} {config : Config α}
    {m : ReservoirModel α} : (build s deck none config).1 = .ok m ↔
      ∃ g, CartesianGrid.ofDeck deck = .ok g ∧
        assemble (s.enter (.given config.constants)) deck g.topology config = .ok m := by
  simp only [build_eq_ok_iff_assemble, chooseGrid, Outcome.map_eq_ok_iff]
  constructor
  · intro h
    obtain ⟨t, ⟨g, hg, rfl⟩, hm⟩ := h
    exact ⟨g, hg, hm⟩
  · intro h
    obtain ⟨g, hg, hm⟩ := h
    exact ⟨_, ⟨g, hg, rfl⟩, hm⟩

omit [Scalar α] in
theorem cellEntry_eq_ok (m : ReservoirModel α) {β : Type} {values : Array β} {a : Nat} {b : β}
    (h : values[a]? = some b) : m.cellEntry values a = .ok b := by
  rw [cellEntry, getElem?_natCast, h]

theorem cartesianIndex_eq_ok_iff {g : CartesianGrid} {a c : Nat} :
    g.topology.cartesianIndex a = .ok c ↔ g.active[a]? = some c := by
  rw [Topology.cartesianIndex, getElem?_natCast]
  simp only [CartesianGrid.topology, Array.getElem?_map]
  cases g.active[a]? <;> simp

/-- The models of two grids of one box, one of which masks the other. -/
theorem exists_assemble_restricts {s : Session α} {deck : Deck α} {config : Config α}
    {g box : CartesianGrid} {all : ReservoirModel α} (h : g.Masks box)
    (hall : assemble s deck box.topology config = .ok all) :
    ∃ m, assemble s deck g.topology config = .ok m ∧ m.Restricts all := by
  simp only [assemble, Outcome.bind_eq_ok_iff, Outcome.pure_eq_ok_iff] at hall ⊢
  obtain ⟨fluids, hfluids, _, hporosities, _, hcells, _, hfaces, _, hregions, _, hstates, rfl⟩ :=
    hall
  obtain ⟨porosities, hp, hporosity⟩ := h.cellPorosities hporosities
  obtain ⟨cells, hc, hcell⟩ := h.cellPermeabilities hcells
  obtain ⟨faces, hf, hface⟩ := h.facePermeabilities hc hcells hcell hfaces
  obtain ⟨functions, hr₀, hlaws, hregion⟩ := h.saturationFunctions hregions
  obtain ⟨states, hs, hstate⟩ := h.initialStates hstates
  refine ⟨_, ⟨fluids, hfluids, porosities, hp, cells, hc, faces, hf, functions, hr₀, states, hs,
    rfl⟩, ⟨?_, ?_⟩⟩
  · intro a ha
    have hsize : a < g.active.size := by
      simpa [numActive, Topology.numActive, CartesianGrid.topology] using ha
    have hc := Array.getElem?_eq_getElem hsize
    obtain ⟨x, hx, hx'⟩ := hporosity.exists_value hc
    obtain ⟨k, hk, hk'⟩ := hcell.exists_value hc
    obtain ⟨r, hr, hr'⟩ := hregion.exists_value hc
    obtain ⟨state, hs, hs'⟩ := hstate.exists_value hc
    obtain ⟨law, hlaw⟩ := SaturationFunctions.exists_law hr₀ (Array.mem_of_getElem? hr)
    have hlaw' := hlaw
    rw [hlaws] at hlaw'
    have hall := h.active_all _ (Array.mem_of_getElem? hc)
    refine ⟨_, cartesianIndex_eq_ok_iff.mpr hc, cartesianIndex_eq_ok_iff.mpr hall,
      ⟨x, cellEntry_eq_ok _ hx, cellEntry_eq_ok _ hx'⟩,
      ⟨k, cellEntry_eq_ok _ hk, cellEntry_eq_ok _ hk'⟩,
      ⟨r, SaturationFunctions.region_eq_ok hr, SaturationFunctions.region_eq_ok hr'⟩,
      ⟨law, SaturationFunctions.law_eq_ok hr hlaw, SaturationFunctions.law_eq_ok hr' hlaw'⟩,
      state, InitialStates.state_eq_ok hs, InitialStates.state_eq_ok hs'⟩
  · intro a b ha hb c e hc he k
    rw [cartesianIndex_eq_ok_iff] at hc he
    simp only [facePermeability, Outcome.map_eq_ok_iff, FaceStore.get_eq_ok_iff,
      hface a b c e hc he]

/-- A mask never changes the cells that it leaves. -/
theorem exists_build_restricts {s : Session α} {deck : Deck α} {d : Dimensions}
    {config : Config α} {all : ReservoirModel α} (hd : deck.dimensions = some d)
    (hfits : Word.fits d.count)
    (hall : (build s (deck.without "ACTNUM") none config).1 = .ok all) :
    ∃ m, (build s deck none config).1 = .ok m ∧ m.Restricts all := by
  obtain ⟨box, hbox, hall⟩ := build_eq_ok_iff.mp hall
  rw [assemble_without] at hall
  have hnone : (deck.without "ACTNUM").array? "ACTNUM" = none :=
    Deck.array?_without_self (by decide)
  have hd' : (deck.without "ACTNUM").dimensions = some d := hd
  obtain ⟨box', hbox', hdims', hcomplete', hmask⟩ := CartesianGrid.exists_ofDeck hd' hfits
  obtain rfl : box = box' := by
    rw [hbox, Except.ok.injEq] at hbox'
    exact hbox'
  obtain ⟨g, hg, hdims, hcomplete, -⟩ := CartesianGrid.exists_ofDeck hd hfits
  have hmasks : g.Masks box := by
    refine ⟨hcomplete, hcomplete', hdims.trans hdims'.symm, fun c hc => ?_⟩
    apply CartesianGrid.active_of_mask_eq_replicate (hmask hnone)
    have hlt := g.lt_of_mem_active hc
    rw [CartesianGrid.numCartesian_eq, hcomplete, hdims] at hlt
    exact hlt
  obtain ⟨m, hm, hrestricts⟩ := exists_assemble_restricts hmasks hall
  exact ⟨m, build_eq_ok_iff.mpr ⟨g, hg, hm⟩, hrestricts⟩

def rowDimensions : Dimensions := ⟨2, 1, 1, Nat.two_pos, Nat.one_pos, Nat.one_pos⟩

/-- Two cells in a row, the second of them masked. -/
def rowDeck : Deck Exact where
  arrays := ⟨[("ACTNUM", .whole #[1, 0]), ("PORO", .real #[0.2, 0.3]),
    ("PERMX", .real #[1.0, 2.0]), ("SWAT", .real #[0.2, 0.3]), ("SGAS", .real #[0.0, 0.0]),
    ("PRESSURE", .real #[1e7, 2e7]), ("RS", .real #[0.0, 0.0])], by decide⟩
  tables := ⟨[("SWOF", [[[0.2, 0.0, 1.0, 0.0, 1.0, 1.0, 0.0, 0.0]]]),
    ("SGOF", [[[0.0, 0.0, 1.0, 0.0, 0.8, 1.0, 0.0, 0.0]]]),
    ("PVTO", [[[0.0, 1e5, 1.0, 1e-3], [50.0, 1e7, 1.2, 8e-4]]]),
    ("PVTW", [[[1e5, 1.0, 0.0, 5e-4, 0.0]]]), ("PVDG", [[[1e5, 0.9, 1e-5, 1e7, 0.01, 1.5e-5]]]),
    ("DENSITY", [[[800.0, 1000.0, 1.0]]])], by decide⟩
  dimensions := some rowDimensions
  size_eq := by decide

def rowConfig : Config Exact where
  constants := {}
  temperature := 300.0
  saturationTolerance := 1e-6
  molarMasses := ⟨18e-3, 175e-3, 24e-3⟩
  capDissolvedGas := false

theorem exists_build_restricts_row : ∃ all m,
    (build {} (rowDeck.without "ACTNUM") none rowConfig).1 = .ok all ∧
      (build {} rowDeck none rowConfig).1 = .ok m ∧ m.Restricts all := by
  have hbuilt : (build {} (rowDeck.without "ACTNUM") none rowConfig).1.toOption.isSome := by
    decide +kernel
  obtain ⟨all, hall⟩ := Outcome.exists_ok_of_isSome hbuilt
  have hd : rowDeck.dimensions = some rowDimensions := rfl
  have hfits : Word.fits rowDimensions.count := by decide
  obtain ⟨m, hm, hrestricts⟩ := exists_build_restricts hd hfits hall
  exact ⟨all, m, hall, hm, hrestricts⟩

end ReservoirModel
end BlackOil

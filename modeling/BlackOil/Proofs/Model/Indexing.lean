import BlackOil.Proofs.Deck.Parse
import BlackOil.Proofs.Model.Masking
import BlackOil.Proofs.Saturation.Assignment

/-!
# Indices in range

A deck with dimensions has as many values under each of its keywords as its grid has cells,
the mask included. So the grid of the deck exists, and none of the stages that read cell
values for it meets an index out of range: neither is one reported nor does a read fall
outside an array. The region of a cell is another matter, as the deck numbers it freely.
-/
namespace BlackOil
variable {α : Type} [Scalar α]

/-- The fault is an index out of range, found by a check or by the array that was read. -/
def Fault.IsIndexing (fault : Fault) : Prop := fault.kind = .indexRange ∨ fault.kind = .position

/-- Computations that meet no index out of range. -/
abbrev IndexesInRange {β : Type} (x : Except Fault β) : Prop :=
  Outcome.FailsOnly (¬·.IsIndexing) x

/-- Every array of the deck reaches beyond all the given cells. -/
def Deck.Covers (deck : Deck α) (cells : Array Nat) : Prop :=
  ∀ keyword values, deck.array? keyword = some values → ∀ c ∈ cells, c < values.size

theorem exists_gather {β : Type} {keyword : String} {values : Array β} {cells : Array Nat}
    (h : ∀ c ∈ cells, c < values.size) : ∃ out, gather keyword values cells = .ok out := by
  obtain ⟨out, hout⟩ := exists_reads_iff (f := (values[·]?)).mpr fun c hc => by
    rw [Array.getElem?_eq_getElem (h c hc)]
    rfl
  exact ⟨out, gather_eq_ok_iff.mpr hout⟩

omit [Scalar α] in
theorem indexesInRange_array (deck : Deck α) (keyword reason : String) :
    IndexesInRange (deck.array keyword reason) := by
  unfold Deck.array
  split
  · exact .of_ok rfl
  · exact .of_error (Or.rec nofun nofun)

theorem indexesInRange_check (tolerance : α) (data : Array (CellData α)) :
    IndexesInRange (CellData.check tolerance data) := by
  unfold CellData.check
  split
  · exact .of_error (Or.rec nofun nofun)
  · exact .of_ok rfl

omit [Scalar α] in
theorem indexesInRange_oilGas (f : FluidSystem α) : IndexesInRange f.oilGas := by
  have hmass : ∀ component, IndexesInRange (f.molarMass component) := by
    intro component
    unfold FluidSystem.molarMass
    split
    · exact .of_ok rfl
    · exact .of_error (Or.rec nofun nofun)
  exact (hmass .oil).bind fun _ _ => (hmass .gas).bind fun _ _ => .of_ok rfl

theorem indexesInRange_moleFractions (m : OilGas α) (dissolvedGas volumeFactor : Batch α) :
    IndexesInRange (m.moleFractions dissolvedGas volumeFactor) := by
  have hcombine : IndexesInRange (Batch.combine m.massFraction dissolvedGas volumeFactor) := by
    unfold Batch.combine
    split
    · exact .of_ok rfl
    · exact .of_error (Or.rec nofun nofun)
  refine hcombine.bind fun fractions _ => ?_
  split
  · split
    · exact .of_error (Or.rec nofun nofun)
    · exact .of_ok rfl
  · exact .of_ok rfl

namespace Deck.Covers
variable {deck : Deck α} {t : Topology} {cells : Array Nat} {precision : Precision}

theorem exists_gather_reals (h : deck.Covers cells) {keyword : String} {values : CellValues α}
    (hvalues : deck.array? keyword = some values) (keyword' : String) :
    ∃ out, gather keyword' values.reals cells = .ok out := by
  apply exists_gather
  rw [values.size_reals]
  exact h keyword values hvalues

theorem exists_gatherFactor (h : deck.Covers cells) (keyword : String) :
    ∃ out, gatherFactor deck keyword cells = .ok out := by
  unfold gatherFactor
  split
  · exact ⟨_, rfl⟩
  · rename_i values hvalues
    exact h.exists_gather_reals hvalues keyword

theorem cellPorosities (h : deck.Covers cells) (hcells : t.cells = .ok cells) :
    IndexesInRange (cellPorosities precision deck t) := by
  obtain ⟨ntgs, hntgs⟩ := h.exists_gatherFactor "NTG"
  obtain ⟨multipliers, hmultipliers⟩ := h.exists_gatherFactor "MULTPV"
  unfold BlackOil.cellPorosities
  refine .bind_ok hcells ?_
  refine (indexesInRange_array deck _ _).bind fun poro hporo => ?_
  obtain ⟨poros, hporos⟩ := h.exists_gather_reals (Deck.array_eq_ok_iff.mp hporo) "PORO"
  refine .bind_ok hporos ?_
  refine .bind_ok hntgs ?_
  refine .bind_ok hmultipliers ?_
  exact .check (Or.rec nofun nofun) (.of_ok rfl)

/-- A keyword that takes the values of another one reaches as far. -/
theorem exists_gather_getD (h : deck.Covers cells) {keyword : String} {other : CellValues α}
    (hother : deck.array? keyword = some other) (keyword' : String) :
    ∃ out, gather keyword' ((deck.array? keyword').getD other).reals cells = .ok out := by
  cases hvalues : deck.array? keyword' with
  | none => exact h.exists_gather_reals hother keyword'
  | some values => exact h.exists_gather_reals hvalues keyword'

theorem cellDiagonals (h : deck.Covers cells) (hcells : t.cells = .ok cells) :
    IndexesInRange (cellDiagonals deck t) := by
  obtain ⟨ntgs, hntgs⟩ := h.exists_gatherFactor "NTG"
  unfold BlackOil.cellDiagonals
  refine (indexesInRange_array deck _ _).bind fun permx hpermx => ?_
  have hpermx := Deck.array_eq_ok_iff.mp hpermx
  obtain ⟨xs, hxs⟩ := h.exists_gather_reals hpermx "PERMX"
  obtain ⟨ys, hys⟩ := h.exists_gather_getD hpermx "PERMY"
  obtain ⟨zs, hzs⟩ := h.exists_gather_getD hpermx "PERMZ"
  refine .bind_ok hcells ?_
  refine .bind_ok hxs ?_
  refine .bind_ok hys ?_
  refine .bind_ok hzs ?_
  refine .bind_ok hntgs ?_
  exact .of_ok rfl

theorem cellPermeabilities (h : deck.Covers cells) (hcells : t.cells = .ok cells) :
    IndexesInRange (cellPermeabilities precision deck t) :=
  (h.cellDiagonals hcells).bind fun _ _ => .of_ok rfl

theorem exists_faceMultipliers (h : deck.Covers cells) (hcells : t.cells = .ok cells) :
    ∃ m, FaceMultipliers.ofDeck deck t = .ok m := by
  obtain ⟨xs, hxs⟩ := h.exists_gatherFactor "MULTX"
  obtain ⟨xs', hxs'⟩ := h.exists_gatherFactor "MULTX-"
  obtain ⟨ys, hys⟩ := h.exists_gatherFactor "MULTY"
  obtain ⟨ys', hys'⟩ := h.exists_gatherFactor "MULTY-"
  obtain ⟨zs, hzs⟩ := h.exists_gatherFactor "MULTZ"
  obtain ⟨zs', hzs'⟩ := h.exists_gatherFactor "MULTZ-"
  unfold FaceMultipliers.ofDeck
  simp only [hcells, hxs, hxs', hys, hys', hzs, hzs', Outcome.ok_bind]
  exact ⟨_, rfl⟩

/-- The quantity of every cell under a keyword of the initial state. -/
theorem read (h : deck.Covers cells) (keyword reason : String) :
    IndexesInRange (do
      let values ← deck.array keyword reason
      gather keyword values.reals cells) := by
  refine (indexesInRange_array deck keyword reason).bind fun values hvalues => ?_
  obtain ⟨out, hout⟩ := h.exists_gather_reals (Deck.array_eq_ok_iff.mp hvalues) keyword
  exact .of_ok hout

theorem cellData (h : deck.Covers cells) (hcells : t.cells = .ok cells) :
    IndexesInRange (CellData.ofDeck deck t) := by
  unfold CellData.ofDeck
  refine .bind_ok hcells ?_
  refine (h.read _ _).bind fun waters _ => ?_
  refine (h.read _ _).bind fun gases _ => ?_
  refine (h.read _ _).bind fun pressures _ => ?_
  refine (h.read _ _).bind fun ratios _ => ?_
  exact .of_ok rfl

theorem initialStates (h : deck.Covers cells) (hcells : t.cells = .ok cells) {floor : α}
    {f : FluidSystem α} {config : Config α} :
    IndexesInRange (initialStates precision floor deck t f config) := by
  unfold BlackOil.initialStates
  refine (h.cellData hcells).bind fun data _ => ?_
  refine (indexesInRange_check config.saturationTolerance data).bind fun _ _ => ?_
  refine (indexesInRange_oilGas f).bind fun composition _ => ?_
  refine (indexesInRange_moleFractions composition _ _).bind fun fractions _ => ?_
  exact .of_ok rfl

end Deck.Covers

/-- The numbers under `SATNUM` are words. -/
def Deck.HasWords (deck : Deck α) : Prop :=
  ∀ values ∈ deck.array? "SATNUM", ∀ n ∈ values.wholes, Word.fits n

section Words

theorem fits_toWord (a : α) : Word.fits (Scalar.toWord a) := by
  unfold Scalar.toWord
  split
  · split
    · assumption
    · decide
  · decide

theorem CellValues.fits_of_mem_ofArray {keyword : String} {values : Array α} {n : Int}
    (h : n ∈ (ofArray keyword values).wholes) : Word.fits n := by
  unfold ofArray at h
  split at h
  all_goals
    obtain ⟨a, -, rfl⟩ := Array.mem_map.mp h
    exact fits_toWord a

/-- What a catalog of pairs holds is one of the pairs. -/
theorem Catalog.mem_of_find?_ofList {β : Type} {pairs : List (String × β)} {keyword : String}
    {b : β} (h : (ofList pairs).find? keyword = some b) : (keyword, b) ∈ pairs := by
  have hstart : ∀ b, (Catalog.mk (β := β) []).find? keyword = some b → (keyword, b) ∈ pairs := by
    intro b hb
    cases hb
  refine List.foldlRecOn (motive := fun c : Catalog β =>
    ∀ b, c.find? keyword = some b → (keyword, b) ∈ pairs) pairs _ hstart ?_ b h
  intro c hc pair hpair b hb
  rw [find?_put] at hb
  split at hb
  · rename_i hkeyword
    cases hb
    rwa [hkeyword]
  · exact hc b hb

theorem Deck.hasWords_of_ofLists {arrays : List (String × Array α)}
    {tables : List (String × List (Table α))} {dimensions : Option (List Int)} {deck : Deck α}
    (h : ofLists arrays tables dimensions = .ok deck) : deck.HasWords := by
  intro values hvalues n hn
  rw [ofLists, ofCatalogs_eq_ok_iff] at h
  rw [array?, h.1] at hvalues
  obtain ⟨⟨keyword, array⟩, -, hpair⟩ := List.mem_map.mp (Catalog.mem_of_find?_ofList hvalues)
  obtain ⟨-, rfl⟩ := Prod.mk.inj hpair
  exact CellValues.fits_of_mem_ofArray hn

/-- The deck was read from a text or made of lists. -/
def Deck.IsRead (deck : Deck α) : Prop :=
  (∃ constants text, parse constants text = .ok deck) ∨
    ∃ arrays tables dimensions, ofLists arrays tables dimensions = .ok deck

theorem Deck.IsRead.hasWords {deck : Deck α} (h : deck.IsRead) : deck.HasWords := by
  rcases h with ⟨constants, text, h⟩ | ⟨arrays, tables, dimensions, h⟩
  · obtain ⟨blocks, -, h⟩ := Outcome.bind_eq_ok_iff.mp h
    exact hasWords_of_ofLists h
  · exact hasWords_of_ofLists h

end Words

namespace CartesianGrid
variable {g : CartesianGrid} {deck : Deck α}

/-- Whatever is read for the active cells and faces of the grid lies inside the arrays of the
deck and of the cells. -/
structure Indexes (g : CartesianGrid) (deck : Deck α) : Prop where
  cells : g.topology.cells = .ok g.active
  covers : deck.Covers g.active
  faces : ∃ faces, g.topology.faces = .ok faces ∧ ∀ f ∈ faces,
    (0 ≤ f.inside ∧ f.inside < g.numActive) ∧ 0 ≤ f.outside ∧ f.outside < g.numActive
  cellPorosities : ∀ precision, IndexesInRange (cellPorosities precision deck g.topology)
  cellPermeabilities : ∀ precision, IndexesInRange (cellPermeabilities precision deck g.topology)
  faceMultipliers : ∃ m, FaceMultipliers.ofDeck deck g.topology = .ok m ∧
    m.positive.size = g.numActive ∧ m.negative.size = g.numActive
  facePermeabilities : ∀ precision precision' cells,
    BlackOil.cellPermeabilities precision deck g.topology = .ok cells →
      cells.size = g.numActive ∧
        ∃ store, facePermeabilities precision' deck g.topology cells = .ok store
  initialStates : ∀ precision floor f config,
    IndexesInRange (initialStates precision floor deck g.topology f config)
  /-- Only a number that names no region is in the way of the regions. -/
  cellRegions : ∀ count fault, cellRegions deck g.topology count = .error fault →
    ∃ cell ∈ g.active, ∃ n, deck.tableNumber? cell = some n ∧ ¬(1 ≤ n ∧ n ≤ count)

theorem mem_range_of_mem_walk (hg : g.Within) {f : Face} (hf : f ∈ g.walk) :
    (0 ≤ f.inside ∧ f.inside < g.numActive) ∧ 0 ≤ f.outside ∧ f.outside < g.numActive := by
  obtain ⟨i, j, ci, cj, hf, hi, hj, -⟩ := (mem_walk_iff hg).mp hf
  rw [hf]
  exact ⟨⟨Int.natCast_nonneg i, lt_numActive hi⟩, Int.natCast_nonneg j, lt_numActive hj⟩

omit [Scalar α] in
theorem covers_active {d : Dimensions} (hd : deck.dimensions = some d) (hg : g.Complete)
    (hgd : g.dimensions = d) : deck.Covers g.active := by
  intro keyword values hvalues c hc
  have hlt := g.lt_of_mem_active hc
  rw [numCartesian_eq] at hlt
  have hsize : values.size = d.count := deck.size_eq d hd _ (Deck.mem_of_array? hvalues)
  have hlength : g.mask.length = g.dimensions.count := hg
  rw [hgd] at hlength
  omega

theorem exists_of_cellRegions_eq_error (hcovers : deck.Covers g.active) (hwords : deck.HasWords)
    {count : Int} {fault : Fault} (h : BlackOil.cellRegions deck g.topology count = .error fault) :
    ∃ cell ∈ g.active, ∃ n, deck.tableNumber? cell = some n ∧ ¬(1 ≤ n ∧ n ≤ count) := by
  have hnumber : ∀ c ∈ g.active, ∃ n, deck.tableNumber? c = some n ∧ Word.fits n := by
    intro c hc
    unfold Deck.tableNumber?
    cases hvalues : deck.array? "SATNUM" with
    | none => exact ⟨1, rfl, by decide⟩
    | some values =>
      have hlt := hcovers _ _ hvalues c hc
      rw [← values.size_wholes] at hlt
      exact ⟨_, Array.getElem?_eq_getElem hlt, hwords values hvalues _ (Array.getElem_mem hlt)⟩
  have hnamed : ∀ c ∈ g.active, (deck.namedRegion? c).isSome := by
    intro c hc
    obtain ⟨n, hn, -⟩ := hnumber c hc
    rw [namedRegion?_eq, hn]
    rfl
  obtain ⟨active, regions, hreads, r, hr, hout, -, -⟩ :=
    BlackOil.exists_of_cellRegions_eq_error g.topology_cells hnamed h
  obtain ⟨cell, hcell, hregion⟩ := hreads.exists_of_mem (Array.mem_of_getElem? hr)
  obtain ⟨n, hn, hfits⟩ := hnumber cell hcell
  refine ⟨cell, hcell, n, hn, ?_⟩
  intro hrange
  rw [namedRegion?_eq, hn, Option.map_some, Option.some.injEq] at hregion
  have hword := (Word.fits_iff n).mp hfits
  have hleast : Word.least < n := by
    have : Word.least < 0 := by decide
    omega
  rw [regionOf_eq ⟨hleast, hword.2⟩] at hregion
  omega

theorem exists_indexes {d : Dimensions} (hd : deck.dimensions = some d)
    (hfits : Word.fits d.count) (hwords : deck.HasWords) :
    ∃ g, ofDeck deck = .ok g ∧ g.dimensions = d ∧ g.Indexes deck := by
  obtain ⟨g, hg, hgd, hcomplete, -⟩ := exists_ofDeck hd hfits
  have hcells := g.topology_cells
  have hcovers : deck.Covers g.active := covers_active hd hcomplete hgd
  obtain ⟨m, hm⟩ := hcovers.exists_faceMultipliers hcells
  obtain ⟨active, hactive, hpositive, hnegative⟩ := FaceMultipliers.ofDeck_eq_ok_iff.mp hm
  cases hcells.symm.trans hactive
  refine ⟨g, hg, hgd, ?_⟩
  constructor
  case cells => exact hcells
  case covers => exact hcovers
  case faces =>
    exact ⟨g.walk, faces_eq_walk hcomplete, fun f => mem_range_of_mem_walk hcomplete.within⟩
  case cellPorosities => exact fun precision => hcovers.cellPorosities hcells
  case cellPermeabilities => exact fun precision => hcovers.cellPermeabilities hcells
  case faceMultipliers => exact ⟨m, hm, hpositive.size_eq, hnegative.size_eq⟩
  case facePermeabilities =>
    intro precision precision' cells hbuilt
    have hsize := size_cellPermeabilities hbuilt
    refine ⟨hsize, g.faceStore precision' m cells, ?_⟩
    rw [facePermeabilities_eq hcomplete hsize, hm]
    rfl
  case initialStates => exact fun precision floor f config => hcovers.initialStates hcells
  case cellRegions => exact fun count fault => exists_of_cellRegions_eq_error hcovers hwords

/-- A deck with dimensions has a grid, and that indexes the deck in range. -/
theorem exists_indexes_of_isRead (hread : deck.IsRead) {d : Dimensions}
    (hd : deck.dimensions = some d) (hfits : Word.fits d.count) :
    ∃ g, ofDeck deck = .ok g ∧ g.dimensions = d ∧ g.Indexes deck :=
  exists_indexes hd hfits hread.hasWords

/-- Two cells, of which the one that the mask leaves out names a region that no table has. -/
theorem exists_indexes_of_isRead_row : ∃ deck : Deck Exact,
    Deck.ofLists [("actnum", #[1.0, 0.0]), ("SATNUM", #[1.0, 7.0])] [] (some [2, 1, 1]) =
        .ok deck ∧
      deck.dimensions = some ReservoirModel.rowDimensions ∧
      Word.fits ReservoirModel.rowDimensions.count ∧
      ∃ g, ofDeck deck = .ok g ∧ g.dimensions = ReservoirModel.rowDimensions ∧
        g.Indexes deck := by
  have hbuilt : (Deck.ofLists (α := Exact) [("actnum", #[1.0, 0.0]), ("SATNUM", #[1.0, 7.0])] []
      (some [2, 1, 1])).toOption.map Deck.dimensions =
        some (some ReservoirModel.rowDimensions) := by decide +kernel
  obtain ⟨deck, hdeck, hd⟩ := Option.map_eq_some_iff.mp hbuilt
  have hdeck := Outcome.toOption_eq_some_iff.mp hdeck
  have hfits : Word.fits ReservoirModel.rowDimensions.count := by decide
  exact ⟨deck, hdeck, hd, hfits, exists_indexes_of_isRead (.inr ⟨_, _, _, hdeck⟩) hd hfits⟩

end CartesianGrid
end BlackOil

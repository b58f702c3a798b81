import BlackOil.Proofs.Grid.Walk
import Mathlib.Tactic.Ring

/-!
# The extent of a grid

The cells of a grid are counted by a word. A box with more cells than that is accepted
wherever the number wraps around to the entries of its mask, and the grid then has fewer
cells than its dimensions say. So a grid covers its box exactly if the number of cells is a
word, and the walk over its faces comes to an end exactly if the neighbours of the active
cells have entries in the tables.
-/
namespace BlackOil.CartesianGrid
variable {g : CartesianGrid}

/-- The grid has the cells that its dimensions say, the mask an entry for each of them, and
the walk over the faces stays inside the tables. -/
structure Covers (g : CartesianGrid) (mask : Option (List Bool)) : Prop where
  numCartesian : g.numCartesian = g.dimensions.count
  length_mask : ∀ m ∈ mask, m.length = g.dimensions.count
  walks : ∃ faces, g.faces = .ok faces

/-- The neighbours of the active cells have entries in the tables. -/
def NeighboursTabulated (g : CartesianGrid) : Prop :=
  ∀ cell ∈ g.active, ∀ d : Direction, g.inBox (d.move (g.location cell)) →
    g.index (d.move (g.location cell)) < g.numCartesian

theorem exists_face?_eq_ok_iff {inside cell : Nat} {d : Direction} :
    (∃ face, g.face? inside cell d = .ok face) ↔
      (g.inBox (d.move (g.location cell)) →
        g.index (d.move (g.location cell)) < g.numCartesian) := by
  simp only [face?]
  by_cases hp : g.inBox (d.move (g.location cell))
  · have hnonneg := g.index_nonneg hp
    rw [if_pos hp, numCartesian]
    cases hposition : g.positions[(g.index (d.move (g.location cell))).toNat]? with
    | some position =>
      obtain ⟨hlt, -⟩ := Array.getElem?_eq_some_iff.mp hposition
      simp only [Except.ok.injEq, exists_eq', true_iff]
      omega
    | none =>
      have hle := Array.getElem?_eq_none_iff.mp hposition
      simp only [reduceCtorEq, exists_false, false_iff]
      intro h
      have := h hp
      omega
  · rw [if_neg hp]
    exact ⟨fun _ h => absurd h hp, fun _ => ⟨none, rfl⟩⟩

theorem exists_cellFaces_eq_ok_iff {inside cell : Nat} :
    (∃ faces, g.cellFaces inside cell = .ok faces) ↔
      ∀ d : Direction, g.inBox (d.move (g.location cell)) →
        g.index (d.move (g.location cell)) < g.numCartesian := by
  unfold cellFaces
  rw [Outcome.exists_bind_pure_eq_ok_iff]
  simp only [Outcome.exists_mapM_eq_ok_iff, Direction.mem_all, forall_const,
    exists_face?_eq_ok_iff]

/-- The walk breaks off exactly where it comes to a neighbour without an entry. -/
theorem exists_faces_eq_ok_iff : (∃ faces, g.faces = .ok faces) ↔ g.NeighboursTabulated := by
  unfold faces
  rw [Outcome.exists_bind_pure_eq_ok_iff, Outcome.exists_mapM_eq_ok_iff]
  constructor
  · intro h cell hcell
    obtain ⟨inside, hinside⟩ := Array.getElem?_of_mem hcell
    refine exists_cellFaces_eq_ok_iff.mp (h (cell, inside) ?_)
    rw [List.mem_zipIdx_iff_getElem?, Array.getElem?_toList]
    exact hinside
  · intro h entry hmem
    obtain ⟨cell, inside⟩ := entry
    rw [List.mem_zipIdx_iff_getElem?, Array.getElem?_toList] at hmem
    exact exists_cellFaces_eq_ok_iff.mpr (h cell (Array.mem_of_getElem? hmem))

/-- From every cell but the last one of the box a step to the positive side stays in it. -/
theorem exists_inBox_move {cell : Nat} (h : cell + 1 < g.dimensions.count) :
    ∃ axis, g.inBox ((⟨axis, true⟩ : Direction).move (g.location cell)) := by
  apply Classical.byContradiction
  intro hnone
  have hcell : g.inBox (g.location cell) := g.inBox_location (by omega)
  obtain ⟨⟨hi, hi'⟩, ⟨hj, hj'⟩, hk, hk'⟩ := g.inBox_iff.mp hcell
  have hlast : (g.location cell).i + 1 = g.dimensions.nx ∧
      (g.location cell).j + 1 = g.dimensions.ny ∧ (g.location cell).k + 1 = g.dimensions.nz := by
    simp only [not_exists, inBox_iff] at hnone
    have hx := hnone .x
    have hy := hnone .y
    have hz := hnone .z
    simp only [Direction.move, if_true] at hx hy hz
    omega
  have hindex : (cell : Int) + 1 = g.dimensions.count := by
    rw [← g.index_location cell, index_eq, Dimensions.count, Nat.cast_mul, Nat.cast_mul,
      ← hlast.1, ← hlast.2.1, ← hlast.2.2]
    ring
  omega

/-- A table that ends inside the box at an active cell lacks one of its neighbours. -/
theorem not_neighboursTabulated (h : g.numCartesian < g.dimensions.count)
    (hlast : g.mask.getLast? = some true) : ¬g.NeighboursTabulated := by
  intro htabulated
  rw [List.getLast?_eq_getElem?, ← numCartesian_eq] at hlast
  have hactive := g.mem_active_iff.mpr hlast
  have hlt := g.lt_of_mem_active hactive
  generalize hcell : g.numCartesian - 1 = cell at hactive hlt
  obtain ⟨axis, hp⟩ : ∃ axis, g.inBox ((⟨axis, true⟩ : Direction).move (g.location cell)) :=
    exists_inBox_move (by omega)
  have hfar := htabulated cell hactive _ hp
  have hnext := g.index_lt_index_move axis (g.location cell)
  rw [index_location] at hnext
  omega

/-- What a grid has of its box when the cells are counted by a word. -/
structure CountsByWord (g : CartesianGrid) (mask : Option (List Bool)) : Prop where
  numCartesian : (g.numCartesian : Int) = Word.wrap g.dimensions.count
  length_mask : ∀ m ∈ mask, m.length = g.numCartesian
  walks_iff : (∃ faces, g.faces = .ok faces) ↔ g.NeighboursTabulated
  /-- The walk over a part of a box whose last cell is active breaks off. -/
  breaks_off : ¬Word.fits g.dimensions.count → g.mask.getLast? = some true →
    ¬∃ faces, g.faces = .ok faces
  covers_iff : g.Covers mask ↔ Word.fits g.dimensions.count

/-- A grid covers its box exactly if the number of cells is a word. -/
theorem countsByWord_of_ofMask {sizes : List Int} {mask : Option (List Bool)}
    (h : ofMask sizes mask = .ok g) :
    g.dimensions.toList = sizes ∧ g.CountsByWord mask := by
  obtain ⟨hsizes, hword, hlength, hmask⟩ := of_ofMask_eq_ok h
  have hcount : (g.numCartesian : Int) = Word.wrap g.dimensions.count := by
    rw [numCartesian_eq, hlength, Dimensions.cellCount_eq_wrap hword]
  have hgiven : ∀ m ∈ mask, m.length = g.numCartesian := by
    intro m hm
    rw [Option.mem_def] at hm
    rw [hm, Option.getD_some] at hmask
    rw [numCartesian_eq, hmask]
  have hcovered : g.numCartesian = g.dimensions.count ↔ Word.fits g.dimensions.count := by
    rw [Word.fits, beq_iff_eq, ← hcount, Int.ofNat_inj]
  refine ⟨hsizes, hcount, hgiven, exists_faces_eq_ok_iff, ?_, ?_⟩
  · intro hfits hlast
    rw [exists_faces_eq_ok_iff]
    have hle := ofMask_within h
    rw [Within, ← numCartesian_eq] at hle
    exact not_neighboursTabulated (Nat.lt_of_le_of_ne hle (mt hcovered.mp hfits)) hlast
  · constructor
    · exact fun hcovers => hcovered.mp hcovers.numCartesian
    · intro hfits
      have hnumber := hcovered.mpr hfits
      refine ⟨hnumber, fun m hm => (hgiven m hm).trans hnumber, ?_⟩
      exact ⟨_, faces_eq_walk (ofMask_complete h hfits)⟩

/-- A box of which the cells wrap around to four. -/
def wrappedDimensions : Dimensions :=
  ⟨0x4000000000000001, 4, 1, Nat.succ_pos 0x4000000000000000, Nat.succ_pos 3, Nat.one_pos⟩

def wrappedGrid : CartesianGrid where
  dimensions := wrappedDimensions
  mask := [true, true, true, true]

theorem ofMask_wrappedGrid :
    ofMask wrappedDimensions.toList (some wrappedGrid.mask) = .ok wrappedGrid := by
  have hcount : wrappedDimensions.cellCount = 4 := by decide
  simp only [ofMask, Dimensions.ofList?_toList, hcount]
  rfl

theorem countsByWord_of_ofMask_wrapped :
    ofMask wrappedDimensions.toList (some wrappedGrid.mask) = .ok wrappedGrid ∧
      wrappedGrid.dimensions.toList = wrappedDimensions.toList ∧
      wrappedGrid.CountsByWord (some wrappedGrid.mask) :=
  ⟨ofMask_wrappedGrid, countsByWord_of_ofMask ofMask_wrappedGrid⟩

/-- Not every grid covers its box: this one has four of its cells, and the walk over its
faces leaves the tables. -/
theorem not_forall_covers : ¬∀ (sizes : List Int) (mask : Option (List Bool)) (g : CartesianGrid),
    ofMask sizes mask = .ok g → g.Covers mask := by
  intro h
  have hcovers := h wrappedDimensions.toList (some wrappedGrid.mask) wrappedGrid ofMask_wrappedGrid
  exact absurd hcovers.numCartesian (by decide)

end BlackOil.CartesianGrid

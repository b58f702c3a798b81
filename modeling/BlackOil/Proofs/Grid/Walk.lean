import BlackOil.Proofs.Grid.Numbering
import BlackOil.Proofs.Outcome
import Mathlib.Tactic.Linarith
import Mathlib.Tactic.Positivity

/-!
# The walk over the faces

In a complete grid a cartesian index and a location in the box determine each other.
The walk over the faces of such a grid never leaves its tables. It visits a pair of
active cells in a direction exactly if the second cell lies one step in that direction
from the first, and it goes through the cells in their order.
-/
namespace BlackOil

/-- Two locations differ by one along exactly one axis. -/
def Location.Adjacent (p q : Location) : Prop :=
  (q.i - p.i).natAbs + (q.j - p.j).natAbs + (q.k - p.k).natAbs = 1

theorem Location.Adjacent.symm {p q : Location} (h : p.Adjacent q) : q.Adjacent p := by
  unfold Adjacent at *
  omega

theorem Location.not_adjacent_self (p : Location) : ¬p.Adjacent p := by
  simp [Adjacent]

namespace Direction

/-- Adjacent locations are one step apart in some direction. -/
theorem adjacent_iff_exists_move {p q : Location} :
    p.Adjacent q ↔ ∃ d : Direction, q = d.move p := by
  obtain ⟨i, j, k⟩ := p
  obtain ⟨i', j', k'⟩ := q
  constructor
  · intro h
    simp only [Location.Adjacent] at h
    have hstep : (i' = i + 1 ∨ i' = i + -1) ∧ j' = j ∧ k' = k ∨
        i' = i ∧ (j' = j + 1 ∨ j' = j + -1) ∧ k' = k ∨
        i' = i ∧ j' = j ∧ (k' = k + 1 ∨ k' = k + -1) := by omega
    rcases hstep with ⟨rfl | rfl, rfl, rfl⟩ | ⟨rfl, rfl | rfl, rfl⟩ | ⟨rfl, rfl, rfl | rfl⟩
    · exact ⟨⟨.x, true⟩, rfl⟩
    · exact ⟨⟨.x, false⟩, rfl⟩
    · exact ⟨⟨.y, true⟩, rfl⟩
    · exact ⟨⟨.y, false⟩, rfl⟩
    · exact ⟨⟨.z, true⟩, rfl⟩
    · exact ⟨⟨.z, false⟩, rfl⟩
  · intro h
    obtain ⟨⟨axis, positive⟩, h⟩ := h
    cases axis <;> cases positive <;> cases h <;> simp [Location.Adjacent]

/-- Of two adjacent locations one lies on the positive side of the other. -/
theorem exists_axis_of_adjacent {p q : Location} (h : p.Adjacent q) : ∃ axis,
    q = (⟨axis, true⟩ : Direction).move p ∨ p = (⟨axis, true⟩ : Direction).move q := by
  obtain ⟨⟨axis, positive⟩, rfl⟩ := adjacent_iff_exists_move.mp h
  cases positive with
  | true => exact ⟨axis, Or.inl rfl⟩
  | false => exact ⟨axis, Or.inr (move_opposite_move ⟨axis, false⟩ p).symm⟩

/-- The step between two locations determines its direction. -/
theorem move_left_cancel {d d' : Direction} {p : Location} (h : d.move p = d'.move p) :
    d = d' := by
  obtain ⟨axis, positive⟩ := d
  obtain ⟨axis', positive'⟩ := d'
  obtain ⟨i, j, k⟩ := p
  cases axis <;> cases positive <;> cases axis' <;> cases positive' <;>
    simp [move] at h ⊢

end Direction

namespace CartesianGrid
variable (g : CartesianGrid)

theorem inBox_iff {p : Location} : g.inBox p ↔
    (0 ≤ p.i ∧ p.i < g.dimensions.nx) ∧ (0 ≤ p.j ∧ p.j < g.dimensions.ny) ∧
      0 ≤ p.k ∧ p.k < g.dimensions.nz := by
  simp [inBox, and_assoc]

/-- The index of a location, one axis inside the other. -/
theorem index_eq (p : Location) :
    g.index p = p.i + g.dimensions.nx * (p.j + g.dimensions.ny * p.k) := by
  rw [index, Int.mul_add, Int.add_assoc, Int.mul_assoc]

theorem location_index {p : Location} (h : g.inBox p) : g.location (g.index p) = p := by
  obtain ⟨⟨hi, hi'⟩, ⟨hj, hj'⟩, hk, hk'⟩ := g.inBox_iff.mp h
  have hx : (g.dimensions.nx : Int) ≠ 0 := by have := g.dimensions.nx_pos; omega
  have hy : (g.dimensions.ny : Int) ≠ 0 := by have := g.dimensions.ny_pos; omega
  have hrow : g.index p / g.dimensions.nx = p.j + g.dimensions.ny * p.k := by
    rw [index_eq, Int.add_mul_ediv_left _ _ hx, Int.ediv_eq_zero_of_lt hi hi', Int.zero_add]
  have hlayer : g.index p / (g.dimensions.nx * g.dimensions.ny) = p.k := by
    rw [← Int.ediv_ediv_of_nonneg (Int.natCast_nonneg _), hrow, Int.add_mul_ediv_left _ _ hy,
      Int.ediv_eq_zero_of_lt hj hj', Int.zero_add]
  have hi : g.index p % g.dimensions.nx = p.i := by
    rw [index_eq, Int.add_mul_emod_self_left, Int.emod_eq_of_lt hi hi']
  have hj : g.index p / g.dimensions.nx % g.dimensions.ny = p.j := by
    rw [hrow, Int.add_mul_emod_self_left, Int.emod_eq_of_lt hj hj']
  simp only [location, hi, hj, hlayer]

theorem index_location (cell : Int) : g.index (g.location cell) = cell := by
  rw [index_eq]
  simp only [location]
  rw [← Int.ediv_ediv_of_nonneg (Int.natCast_nonneg _), Int.emod_add_mul_ediv,
    Int.emod_add_mul_ediv]

theorem inBox_location {cell : Nat} (h : cell < g.dimensions.count) :
    g.inBox (g.location cell) := by
  have hx : (0 : Int) < g.dimensions.nx := by have := g.dimensions.nx_pos; omega
  have hy : (0 : Int) < g.dimensions.ny := by have := g.dimensions.ny_pos; omega
  have hxy := Int.mul_pos hx hy
  have hcell : (0 : Int) ≤ cell := Int.natCast_nonneg cell
  have hcount : (cell : Int) < g.dimensions.nz * (g.dimensions.nx * g.dimensions.ny) := by
    rw [Int.mul_comm]
    exact_mod_cast h
  exact g.inBox_iff.mpr ⟨⟨Int.emod_nonneg _ (Int.ne_of_gt hx), Int.emod_lt_of_pos _ hx⟩,
    ⟨Int.emod_nonneg _ (Int.ne_of_gt hy), Int.emod_lt_of_pos _ hy⟩,
    Int.ediv_nonneg hcell (Int.le_of_lt hxy), Int.ediv_lt_of_lt_mul hxy hcount⟩

/-- A location in the box is that of a cell. The cells are counted along the first axis, then
along the second and then along the third. -/
structure Places (p : Location) (cell : Nat) : Prop where
  along_x : 0 ≤ p.i ∧ p.i < g.dimensions.nx
  along_y : 0 ≤ p.j ∧ p.j < g.dimensions.ny
  along_z : 0 ≤ p.k ∧ p.k < g.dimensions.nz
  cell_eq : cell = p.i + g.dimensions.nx * p.j + g.dimensions.nx * g.dimensions.ny * p.k

theorem index_nonneg {p : Location} (h : g.inBox p) : 0 ≤ g.index p := by
  obtain ⟨⟨hi, -⟩, ⟨hj, -⟩, hk, -⟩ := g.inBox_iff.mp h
  rw [index_eq]
  positivity

theorem index_lt {p : Location} (h : g.inBox p) : (g.index p).toNat < g.dimensions.count := by
  obtain ⟨⟨hi, hi'⟩, ⟨hj, hj'⟩, hk, hk'⟩ := g.inBox_iff.mp h
  have hnonneg := g.index_nonneg h
  have hrow : p.j + g.dimensions.ny * p.k + 1 ≤ g.dimensions.ny * g.dimensions.nz := by nlinarith
  have hcell : g.index p < g.dimensions.nx * (g.dimensions.ny * g.dimensions.nz) := by
    rw [index_eq]
    nlinarith
  have hcount : (g.dimensions.count : Int) =
      g.dimensions.nx * (g.dimensions.ny * g.dimensions.nz) := by
    rw [Dimensions.count, Nat.mul_assoc]
    push_cast
    rfl
  omega

/-- A step to the positive side leads to a later cell. -/
theorem index_lt_index_move (axis : Axis) (p : Location) :
    g.index p < g.index ((⟨axis, true⟩ : Direction).move p) := by
  have hx : (0 : Int) < g.dimensions.nx := by have := g.dimensions.nx_pos; omega
  have hy : (0 : Int) < g.dimensions.ny := by have := g.dimensions.ny_pos; omega
  rw [index_eq, index_eq]
  cases axis
  · simp [Direction.move]
  · simp only [Direction.move, if_true]
    nlinarith
  · simp only [Direction.move, if_true]
    nlinarith [Int.mul_pos hx hy]

/-- The active neighbour of a cartesian cell in a direction. -/
def neighbour? (cell : Nat) (d : Direction) : Option Nat :=
  let p := d.move (g.location cell)
  if g.inBox p then g.positions[(g.index p).toNat]?.join else none

/-- The faces in the order of the walk. -/
def walk : List Face :=
  g.active.toList.zipIdx.flatMap fun (cell, inside) =>
    Direction.all.filterMap fun d =>
      (g.neighbour? cell d).map fun outside : Nat => ⟨inside, outside, d⟩

variable {g}

theorem face?_eq (h : g.Complete) (inside cell : Nat) (d : Direction) :
    g.face? inside cell d =
      .ok ((g.neighbour? cell d).map fun outside : Nat => ⟨inside, outside, d⟩) := by
  simp only [face?, neighbour?]
  split
  · rename_i hp
    have hlt : (g.index (d.move (g.location cell))).toNat < g.positions.size := by
      have := g.index_lt hp
      rw [← h, ← numCartesian_eq] at this
      exact this
    rw [Array.getElem?_eq_getElem hlt]
    cases g.positions[(g.index (d.move (g.location cell))).toNat] <;> rfl
  · rfl

theorem cellFaces_eq (h : g.Complete) (inside cell : Nat) :
    g.cellFaces inside cell = .ok (Direction.all.filterMap fun d =>
      (g.neighbour? cell d).map fun outside : Nat => ⟨inside, outside, d⟩) := by
  unfold cellFaces
  rw [Outcome.mapM_of_forall fun d _ => face?_eq h inside cell d]
  simp only [bind, Except.bind, pure, Except.pure, List.filterMap_map]
  rfl

/-- The walk never breaks off. -/
theorem faces_eq_walk (h : g.Complete) : g.faces = .ok g.walk := by
  unfold faces
  rw [Outcome.mapM_of_forall (g := fun x : Nat × Nat => Direction.all.filterMap fun d =>
    (g.neighbour? x.1 d).map fun outside : Nat => (⟨x.2, outside, d⟩ : Face))
    fun x _ => cellFaces_eq h x.2 x.1]
  simp only [bind, Except.bind, pure, Except.pure, walk, List.flatMap]

theorem eq_of_face?_eq_ok {inside cell : Nat} {d : Direction} {face : Option Face}
    (h : g.face? inside cell d = .ok face) :
    face = (g.neighbour? cell d).map fun outside : Nat => ⟨inside, outside, d⟩ := by
  simp only [face?] at h
  simp only [neighbour?]
  split at h
  · rename_i hp
    split at h
    · rename_i position hposition
      cases h
      rw [if_pos hp, hposition]
      cases position <;> rfl
    · cases h
  · rename_i hp
    cases h
    rw [if_neg hp, Option.map_none]

theorem eq_of_cellFaces_eq_ok {inside cell : Nat} {faces : List Face}
    (h : g.cellFaces inside cell = .ok faces) :
    faces = Direction.all.filterMap fun d =>
      (g.neighbour? cell d).map fun outside : Nat => ⟨inside, outside, d⟩ := by
  obtain ⟨found, hfound, h⟩ := Outcome.bind_eq_ok_iff.mp h
  have hmap := Outcome.eq_map_of_mapM_eq_ok (fun d _ _ hd => eq_of_face?_eq_ok hd) hfound
  cases h
  rw [hmap, List.filterMap_map]
  rfl

/-- If the walk does not break off, it goes through the faces in this order, whether or not
the mask covers the box. -/
theorem eq_walk_of_faces_eq_ok {faces : List Face} (h : g.faces = .ok faces) :
    faces = g.walk := by
  obtain ⟨found, hfound, h⟩ := Outcome.bind_eq_ok_iff.mp h
  have hmap := Outcome.eq_map_of_mapM_eq_ok (fun x _ _ hx => eq_of_cellFaces_eq_ok hx) hfound
  cases h
  rw [hmap, walk, List.flatMap]

theorem location_inBox (h : g.Within) {k cell : Nat} (hk : g.active[k]? = some cell) :
    g.inBox (g.location cell) := by
  have hlt := g.lt_of_mem_active (Array.mem_of_getElem? hk)
  rw [numCartesian_eq] at hlt
  exact g.inBox_location (Nat.lt_of_lt_of_le hlt h)

theorem places_location (h : g.Within) {k cell : Nat} (hk : g.active[k]? = some cell) :
    g.Places (g.location cell) cell := by
  obtain ⟨hi, hj, hk⟩ := g.inBox_iff.mp (location_inBox h hk)
  exact ⟨hi, hj, hk, (g.index_location cell).symm⟩

theorem neighbour?_eq_some_iff (h : g.Within) {cell k : Nat} {d : Direction} :
    g.neighbour? cell d = some k ↔
      ∃ other : Nat, g.active[k]? = some other ∧
        g.location other = d.move (g.location cell) := by
  simp only [neighbour?]
  constructor
  · intro hk
    split at hk
    · rename_i hp
      rw [Option.join_eq_some_iff, positions_eq_some_iff] at hk
      refine ⟨_, hk, ?_⟩
      rw [Int.toNat_of_nonneg (g.index_nonneg hp)]
      exact g.location_index hp
    · cases hk
  · rintro ⟨other, hk, hloc⟩
    have hp := location_inBox h hk
    rw [hloc] at hp
    rw [if_pos hp, Option.join_eq_some_iff, positions_eq_some_iff, ← hloc, g.index_location]
    exact hk

/-- A face is visited exactly if its outside cell lies one step from its inside
cell, in the direction of the face. -/
theorem mem_walk_iff (h : g.Within) {f : Face} : f ∈ g.walk ↔
    ∃ i j ci cj : Nat, f = ⟨i, j, f.direction⟩ ∧ g.active[i]? = some ci ∧
      g.active[j]? = some cj ∧ g.location cj = f.direction.move (g.location ci) := by
  simp only [walk, List.mem_flatMap, List.mem_filterMap, Option.map_eq_some_iff, Prod.exists,
    List.mem_zipIdx_iff_getElem?, Array.getElem?_toList]
  constructor
  · rintro ⟨ci, i, hi, d, -, j, hj, rfl⟩
    obtain ⟨cj, hj, hloc⟩ := (neighbour?_eq_some_iff h).mp hj
    exact ⟨i, j, ci, cj, rfl, hi, hj, hloc⟩
  · rintro ⟨i, j, ci, cj, hf, hi, hj, hloc⟩
    have hj := (neighbour?_eq_some_iff h).mpr ⟨cj, hj, hloc⟩
    exact ⟨ci, i, hi, f.direction, f.direction.mem_all, j, hj, hf.symm⟩

theorem zipIdx_active_pairwise (g : CartesianGrid) :
    g.active.toList.zipIdx.Pairwise fun x y => x.2 < y.2 := by
  rw [← List.pairwise_map (f := Prod.snd), List.zipIdx_map_snd]
  exact List.pairwise_lt_range'

/-- The walk goes through the inside cells in their order. -/
theorem walk_pairwise (g : CartesianGrid) :
    g.walk.Pairwise fun f f' => f.inside ≤ f'.inside := by
  unfold walk
  rw [List.pairwise_flatMap]
  constructor
  · rintro ⟨cell, inside⟩ -
    rw [List.pairwise_filterMap]
    refine List.pairwise_of_forall fun d d' f hf f' hf' => ?_
    obtain ⟨-, -, rfl⟩ := Option.map_eq_some_iff.mp hf
    obtain ⟨-, -, rfl⟩ := Option.map_eq_some_iff.mp hf'
    exact Int.le_refl _
  · refine g.zipIdx_active_pairwise.imp ?_
    rintro ⟨cell, inside⟩ ⟨cell', inside'⟩ hlt f hf f' hf'
    simp only [List.mem_filterMap, Option.map_eq_some_iff] at hf hf'
    obtain ⟨d, -, j, -, rfl⟩ := hf
    obtain ⟨d', -, j', -, rfl⟩ := hf'
    exact Int.ofNat_le.mpr (Nat.le_of_lt hlt)

end CartesianGrid
end BlackOil

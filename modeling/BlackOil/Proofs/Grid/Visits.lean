import BlackOil.Proofs.Grid.Walk
import Mathlib.Data.List.Nodup
import Mathlib.Data.Sym.Sym2

/-!
# Visited faces

The walk over the faces of a grid goes exactly once through every step from an active cell
to an active neighbour. Two adjacent cells are therefore seen twice, from both sides and in
opposite directions. A step along one axis leaves the other two coordinates as they are, so
that no face leads around the end of a row or of a layer.
-/
namespace BlackOil

/-- The two cells of a face, from whichever side it is seen. -/
def Face.pair (f : Face) : Sym2 Int := s(f.inside, f.outside)

/-- A step leaves the coordinates along the other axes as they are. -/
theorem Direction.move_off_axis (d : Direction) (p : Location) :
    (d.axis = .x ∨ p.i = (d.move p).i) ∧ (d.axis = .y ∨ p.j = (d.move p).j) ∧
      (d.axis = .z ∨ p.k = (d.move p).k) := by
  obtain ⟨axis, positive⟩ := d
  cases axis <;> simp [move]

namespace CartesianGrid

/-- The active cell `b` lies one step in the direction `d` from the active cell `a`. -/
def Step (g : CartesianGrid) (a b : Int) (d : Direction) : Prop :=
  ∃ ca cb : Nat, g.cartesianIndex a = .ok ca ∧ g.cartesianIndex b = .ok cb ∧
    g.location cb = d.move (g.location ca)

/-- The faces are the steps between active cells, each of them once. -/
structure Visits (g : CartesianGrid) (faces : List Face) : Prop where
  /-- The locations that the steps go between are those of the cells. -/
  places : ∀ {a : Int} {c : Nat}, g.cartesianIndex a = .ok c → g.Places (g.location c) c
  mem_iff : ∀ {a b : Int} {d : Direction}, ⟨a, b, d⟩ ∈ faces ↔ g.Step a b d
  nodup : faces.Nodup
  opposite_mem_iff : ∀ {a b : Int} {d : Direction},
    ⟨a, b, d⟩ ∈ faces ↔ ⟨b, a, d.opposite⟩ ∈ faces
  /-- Two adjacent cells are seen twice. -/
  length_filter_pair : ∀ {a b : Int} {ca cb : Nat}, g.cartesianIndex a = .ok ca →
    g.cartesianIndex b = .ok cb → (g.location ca).Adjacent (g.location cb) →
    (faces.filter (·.pair = s(a, b))).length = 2
  inside_ne_outside : ∀ f ∈ faces, f.inside ≠ f.outside
  /-- A face along one axis lies in one row of the grid along that axis. -/
  row : ∀ {a b : Int} {d : Direction} {ca cb : Nat}, ⟨a, b, d⟩ ∈ faces →
    g.cartesianIndex a = .ok ca → g.cartesianIndex b = .ok cb →
    (d.axis = .x ∨ (g.location ca).i = (g.location cb).i) ∧
      (d.axis = .y ∨ (g.location ca).j = (g.location cb).j) ∧
      (d.axis = .z ∨ (g.location ca).k = (g.location cb).k)
  /-- Only rows of one cell are joined from the end of one to the start of another. -/
  row_end : ∀ {a b : Int} {d : Direction} {ca cb : Nat}, ⟨a, b, d⟩ ∈ faces →
    g.cartesianIndex a = .ok ca → g.cartesianIndex b = .ok cb →
    (g.location ca).i = g.dimensions.nx - 1 → (g.location cb).i = 0 →
    (g.location ca).j = (g.location cb).j ∧ (g.location ca).k = (g.location cb).k ∨
      g.dimensions.nx = 1
  /-- Only layers of one row are joined from the end of one to the start of another. -/
  layer_end : ∀ {a b : Int} {d : Direction} {ca cb : Nat}, ⟨a, b, d⟩ ∈ faces →
    g.cartesianIndex a = .ok ca → g.cartesianIndex b = .ok cb →
    (g.location ca).j = g.dimensions.ny - 1 → (g.location cb).j = 0 →
    (g.location ca).k = (g.location cb).k ∨ g.dimensions.ny = 1

variable {g : CartesianGrid}

theorem walk_nodup (g : CartesianGrid) : g.walk.Nodup := by
  unfold walk
  rw [List.nodup_flatMap]
  constructor
  · rintro ⟨cell, inside⟩ -
    refine List.Nodup.filterMap (fun d d' f hf hf' => ?_) (by decide)
    obtain ⟨outside, -, rfl⟩ := Option.map_eq_some_iff.mp hf
    obtain ⟨outside', -, he⟩ := Option.map_eq_some_iff.mp hf'
    exact congrArg Face.direction he.symm
  · refine g.zipIdx_active_pairwise.imp ?_
    rintro ⟨cell, inside⟩ ⟨cell', inside'⟩ hlt f hf hf'
    simp only [List.mem_filterMap, Option.map_eq_some_iff] at hf hf'
    obtain ⟨d, -, outside, -, rfl⟩ := hf
    obtain ⟨d', -, outside', -, he⟩ := hf'
    have hinside : (inside' : Int) = inside := congrArg Face.inside he
    omega

theorem mem_walk_iff_step (h : g.Complete) {a b : Int} {d : Direction} :
    ⟨a, b, d⟩ ∈ g.walk ↔ g.Step a b d := by
  rw [mem_walk_iff h.within]
  simp only [Step, cartesianIndex_eq_ok_iff, Face.mk.injEq, and_true]
  constructor
  · rintro ⟨i, j, ci, cj, ⟨rfl, rfl⟩, hi, hj, hloc⟩
    exact ⟨ci, cj, ⟨i, rfl, hi⟩, ⟨j, rfl, hj⟩, hloc⟩
  · rintro ⟨ci, cj, ⟨i, rfl, hi⟩, ⟨j, rfl, hj⟩, hloc⟩
    exact ⟨i, j, ci, cj, ⟨rfl, rfl⟩, hi, hj, hloc⟩

namespace Step
variable {a b : Int} {d d' : Direction} {ca cb : Nat}

theorem location_eq (h : g.Step a b d) (ha : g.cartesianIndex a = .ok ca)
    (hb : g.cartesianIndex b = .ok cb) : g.location cb = d.move (g.location ca) := by
  obtain ⟨ca', cb', ha', hb', hloc⟩ := h
  rw [ha, Except.ok.injEq] at ha'
  rw [hb, Except.ok.injEq] at hb'
  rw [ha', hb', hloc]

theorem opposite (h : g.Step a b d) : g.Step b a d.opposite := by
  obtain ⟨ca, cb, ha, hb, hloc⟩ := h
  exact ⟨cb, ca, hb, ha, by rw [hloc, Direction.move_opposite_move]⟩

/-- Two cells are apart in one direction only. -/
theorem direction_unique (h : g.Step a b d) (h' : g.Step a b d') : d = d' := by
  obtain ⟨ca, cb, ha, hb, hloc⟩ := h
  exact Direction.move_left_cancel (hloc.symm.trans (h'.location_eq ha hb))

theorem ne (h : g.Step a b d) : a ≠ b := by
  rintro rfl
  obtain ⟨ca, cb, ha, hb, hloc⟩ := h
  rw [ha, Except.ok.injEq] at hb
  subst hb
  exact Location.not_adjacent_self _ (Direction.adjacent_iff_exists_move.mpr ⟨d, hloc⟩)

end Step

/-- The two visits of a pair of adjacent cells. -/
theorem filter_pair_perm (h : g.Complete) {a b : Int} {d : Direction} (hs : g.Step a b d) :
    (g.walk.filter (·.pair = s(a, b))).Perm [⟨a, b, d⟩, ⟨b, a, d.opposite⟩] := by
  have hne : (⟨a, b, d⟩ : Face) ≠ ⟨b, a, d.opposite⟩ := fun he => hs.ne (congrArg Face.inside he)
  rw [List.perm_ext_iff_of_nodup (g.walk_nodup.filter _) (by simp [hne])]
  rintro ⟨a', b', d'⟩
  simp only [List.mem_filter, mem_walk_iff_step h, decide_eq_true_eq, Face.pair, Sym2.eq_iff,
    List.mem_cons, List.not_mem_nil, or_false]
  constructor
  · rintro ⟨hs', ⟨rfl, rfl⟩ | ⟨rfl, rfl⟩⟩
    · exact Or.inl (by rw [hs'.direction_unique hs])
    · exact Or.inr (by rw [hs'.direction_unique hs.opposite])
  · rintro (he | he)
    · cases he
      exact ⟨hs, Or.inl ⟨rfl, rfl⟩⟩
    · cases he
      exact ⟨hs.opposite, Or.inr ⟨rfl, rfl⟩⟩

theorem Step.off_axis {a b : Int} {d : Direction} {ca cb : Nat} (h : g.Step a b d)
    (ha : g.cartesianIndex a = .ok ca) (hb : g.cartesianIndex b = .ok cb) :
    (d.axis = .x ∨ (g.location ca).i = (g.location cb).i) ∧
      (d.axis = .y ∨ (g.location ca).j = (g.location cb).j) ∧
      (d.axis = .z ∨ (g.location ca).k = (g.location cb).k) := by
  rw [h.location_eq ha hb]
  exact d.move_off_axis _

theorem visits_walk (h : g.Complete) : g.Visits g.walk where
  places := by
    intro a c ha
    obtain ⟨k, -, hk⟩ := cartesianIndex_eq_ok_iff.mp ha
    exact places_location h.within hk
  mem_iff := mem_walk_iff_step h
  nodup := g.walk_nodup
  opposite_mem_iff := by
    intro a b d
    rw [mem_walk_iff_step h, mem_walk_iff_step h]
    exact ⟨Step.opposite, fun hs => d.opposite_opposite ▸ hs.opposite⟩
  length_filter_pair := by
    intro a b ca cb ha hb hadj
    obtain ⟨d, hloc⟩ := Direction.adjacent_iff_exists_move.mp hadj
    rw [(filter_pair_perm h ⟨ca, cb, ha, hb, hloc⟩).length_eq]
    rfl
  inside_ne_outside _ hf := ((mem_walk_iff_step h).mp hf).ne
  row hf ha hb := ((mem_walk_iff_step h).mp hf).off_axis ha hb
  row_end := by
    intro a b d ca cb hf ha hb hend hstart
    obtain ⟨hi, hj, hk⟩ := ((mem_walk_iff_step h).mp hf).off_axis ha hb
    rcases hi with hx | hi
    · rw [hx] at hj hk
      exact Or.inl ⟨hj.resolve_left nofun, hk.resolve_left nofun⟩
    · exact Or.inr (by omega)
  layer_end := by
    intro a b d ca cb hf ha hb hend hstart
    obtain ⟨-, hj, hk⟩ := ((mem_walk_iff_step h).mp hf).off_axis ha hb
    rcases hj with hy | hj
    · rw [hy] at hk
      exact Or.inl (hk.resolve_left nofun)
    · exact Or.inr (by omega)

/-- A mask for a box of cells is accepted, and the walk over the faces of its grid goes
through the steps between the cells that it leaves. -/
theorem exists_faces_visits {d : Dimensions} (hd : Word.fits d.count)
    {mask : Option (List Bool)} (hm : ∀ m ∈ mask, m.length = d.count) :
    ∃ g faces, ofMask d.toList mask = .ok g ∧ g.dimensions = d ∧
      (∀ c : Nat, (∃ a, g.cartesianIndex a = .ok c) ↔
        c < d.count ∧ ∀ m ∈ mask, m[c]? = some true) ∧
      g.faces = .ok faces ∧ g.Visits faces := by
  obtain ⟨g, hg, rfl, hmask⟩ := exists_ofMask hd hm
  have hcomplete := ofMask_complete hg hd
  refine ⟨g, g.walk, hg, rfl, fun c => ?_, faces_eq_walk hcomplete, visits_walk hcomplete⟩
  have hactive : (∃ a, g.cartesianIndex a = .ok c) ↔ g.mask[c]? = some true := by
    rw [← mem_active_iff, Array.mem_iff_getElem?]
    simp only [cartesianIndex_eq_ok_iff]
    constructor
    · rintro ⟨-, k, -, hk⟩
      exact ⟨k, hk⟩
    · rintro ⟨k, hk⟩
      exact ⟨k, k, rfl, hk⟩
  rw [hactive, hmask]
  cases mask with
  | none => simp [List.getElem?_replicate]
  | some m =>
    simp only [Option.getD_some, Option.mem_some_iff, forall_eq', iff_and_self]
    intro hc
    exact hm m rfl ▸ (List.getElem?_eq_some_iff.mp hc).choose

/-- Two rows of two cells. -/
def squareDimensions : Dimensions := ⟨2, 2, 1, Nat.two_pos, Nat.two_pos, Nat.one_pos⟩

/-- The first cell of the second row is masked. -/
def squareMask : List Bool := [true, true, false, true]

theorem exists_faces_visits_square : Word.fits squareDimensions.count ∧
    (∀ m ∈ some squareMask, m.length = squareDimensions.count) ∧
    ∃ g, ofMask squareDimensions.toList (some squareMask) = .ok g ∧
      g.dimensions = squareDimensions ∧
      (∀ c : Nat, (∃ a, g.cartesianIndex a = .ok c) ↔
        c < squareDimensions.count ∧ ∀ m ∈ some squareMask, m[c]? = some true) ∧
      g.Visits [⟨0, 1, ⟨.x, true⟩⟩, ⟨1, 0, ⟨.x, false⟩⟩, ⟨1, 2, ⟨.y, true⟩⟩,
        ⟨2, 1, ⟨.y, false⟩⟩] := by
  have hfits : Word.fits squareDimensions.count := by decide
  have hmask : ∀ m ∈ some squareMask, m.length = squareDimensions.count := by decide
  obtain ⟨g, faces, hg, hdimensions, hactive, hfaces, hvisits⟩ :=
    exists_faces_visits hfits hmask
  have hwalk : (ofMask squareDimensions.toList (some squareMask)).toOption.all fun g =>
      g.faces = .ok [⟨0, 1, ⟨.x, true⟩⟩, ⟨1, 0, ⟨.x, false⟩⟩, ⟨1, 2, ⟨.y, true⟩⟩,
        ⟨2, 1, ⟨.y, false⟩⟩] := by decide +kernel
  rw [hg] at hwalk
  obtain rfl := Except.ok.inj ((of_decide_eq_true hwalk).symm.trans hfaces)
  exact ⟨hfits, hmask, g, hg, hdimensions, hactive, hvisits⟩

end CartesianGrid
end BlackOil

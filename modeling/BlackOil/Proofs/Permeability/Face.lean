import BlackOil.Proofs.Grid.Walk
import BlackOil.Proofs.Permeability.Cell
import BlackOil.Proofs.Permeability.Store
import Mathlib.Data.Set.List

/-!
# Face permeabilities of a grid

Visiting the faces of a complete grid stores one tensor for each pair of adjacent active
cells. It is the tensor of the first visit, which comes from the cell on the negative
side, so that the cell with the lower index contributes its positive multiplier and the
other one its negative multiplier.
-/
namespace BlackOil
variable {α : Type} [Scalar α]

namespace FaceMultipliers

omit [Scalar α] in
theorem reads_triples_iff {f g h : Nat → Option α} {cells : Array Nat}
    {out : Array (Triple α)} :
    Reads (fun c => do return ⟨← f c, ← g c, ← h c⟩) cells out ↔ ∃ xs ys zs,
      Reads f cells xs ∧ Reads g cells ys ∧ Reads h cells zs ∧
        out = ((xs.zip ys).zip zs).map fun ((x, y), z) => ⟨x, y, z⟩ := by
  have hjoin : (fun c => do return ⟨← f c, ← g c, ← h c⟩) = fun c =>
      (((f c).bind fun x => (g c).map (x, ·)).bind fun p => (h c).map (p, ·)).map
        fun ((x, y), z) => Triple.mk x y z := by
    funext c
    cases f c <;> cases g c <;> cases h c <;> rfl
  rw [hjoin, reads_map_iff]
  simp only [reads_zip_iff]
  constructor
  · intro h
    obtain ⟨_, ⟨_, zs, ⟨xs, ys, hx, hy, rfl⟩, hz, rfl⟩, rfl⟩ := h
    exact ⟨xs, ys, zs, hx, hy, hz, rfl⟩
  · intro h
    obtain ⟨xs, ys, zs, hx, hy, hz, rfl⟩ := h
    exact ⟨_, ⟨_, zs, ⟨xs, ys, hx, hy, rfl⟩, hz, rfl⟩, rfl⟩

/-- The multipliers are those that the deck gives in the cells. -/
theorem ofDeck_eq_ok_iff {deck : Deck α} {t : Topology} {m : FaceMultipliers α} :
    ofDeck deck t = .ok m ↔ ∃ cells, t.cells = .ok cells ∧
      Reads (deck.multipliers? true) cells m.positive ∧
      Reads (deck.multipliers? false) cells m.negative := by
  simp only [ofDeck, Outcome.bind_eq_ok_iff, gatherFactor_eq_ok_iff]
  have hpos : Reads (deck.multipliers? true) = Reads (fun c => do
      return ⟨← deck.factor? "MULTX" c, ← deck.factor? "MULTY" c, ← deck.factor? "MULTZ" c⟩) := rfl
  have hneg : Reads (deck.multipliers? false) = Reads (fun c => do
      return ⟨← deck.factor? "MULTX-" c, ← deck.factor? "MULTY-" c,
        ← deck.factor? "MULTZ-" c⟩) := rfl
  rw [hpos, hneg]
  simp only [reads_triples_iff]
  constructor
  · intro h
    obtain ⟨cells, hc, xs, hx, xs', hx', ys, hy, ys', hy', zs, hz, zs', hz', h⟩ := h
    cases h
    exact ⟨cells, hc, ⟨xs, ys, zs, hx, hy, hz, rfl⟩, xs', ys', zs', hx', hy', hz', rfl⟩
  · intro h
    obtain ⟨cells, hc, ⟨xs, ys, zs, hx, hy, hz, hp⟩, xs', ys', zs', hx', hy', hz', hn⟩ := h
    refine ⟨cells, hc, xs, hx, xs', hx', ys, hy, ys', hy', zs, hz, zs', hz', ?_⟩
    obtain ⟨positive, negative⟩ := m
    simp only at hp hn
    rw [hp, hn]
    rfl

/-- The multiplier of a cell on its face in a direction. Beyond the cells it is one. -/
def factor (m : FaceMultipliers α) (d : Direction) (cell : Int) : α :=
  ((if d.positive then m.positive else m.negative).getD cell.toNat ⟨1.0, 1.0, 1.0⟩).get d.axis

end FaceMultipliers

omit [Scalar α] in
theorem entryAt_eq_ok {β : Type} {values : Array β} {index : Int} (default : β)
    (h : 0 ≤ index ∧ index < values.size) :
    entryAt values index = .ok (values.getD index.toNat default) := by
  have hlt : index.toNat < values.size := by omega
  simp [entryAt, Int.not_lt.mpr h.1, hlt]

namespace FaceMultipliers

/-- The two cells of a face see it from opposite sides. -/
theorem ofFace_eq_ok {m : FaceMultipliers α} {f : Face} {n : Int} (hp : m.positive.size = n)
    (hn : m.negative.size = n) (hi : 0 ≤ f.inside ∧ f.inside < n)
    (ho : 0 ≤ f.outside ∧ f.outside < n) :
    m.ofFace f = .ok (m.factor f.direction f.inside, m.factor f.direction.opposite f.outside) := by
  obtain ⟨inside, outside, axis, positive⟩ := f
  cases positive with
  | true =>
    simp only [ofFace, if_true]
    rw [entryAt_eq_ok ⟨1.0, 1.0, 1.0⟩ (hp ▸ hi), entryAt_eq_ok ⟨1.0, 1.0, 1.0⟩ (hn ▸ ho)]
    rfl
  | false =>
    simp only [ofFace, Bool.false_eq_true, if_false]
    rw [entryAt_eq_ok ⟨1.0, 1.0, 1.0⟩ (hn ▸ hi), entryAt_eq_ok ⟨1.0, 1.0, 1.0⟩ (hp ▸ ho)]
    rfl

theorem factor_eq {m : FaceMultipliers α} {deck : Deck α} {cells : Array Nat}
    (hp : Reads (deck.multipliers? true) cells m.positive)
    (hn : Reads (deck.multipliers? false) cells m.negative) (d : Direction) {i c : Nat}
    (hc : cells[i]? = some c) : deck.factor? d.multiplier c = some (m.factor d i) := by
  have hread : ∀ {positive : Bool} {values : Array (Triple α)},
      Reads (deck.multipliers? positive) cells values →
        deck.factor? (Direction.multiplier ⟨d.axis, positive⟩) c =
          some ((values.getD i ⟨1.0, 1.0, 1.0⟩).get d.axis) := by
    intro positive values h
    obtain ⟨triple, ht, hi⟩ := h.exists_entry hc
    rw [Deck.get_of_multipliers? ht, Array.getD_eq_getD_getElem?, hi, Option.getD_some]
  obtain ⟨axis, positive⟩ := d
  cases positive with
  | true => exact hread hp
  | false => exact hread hn

end FaceMultipliers

theorem Tensor.entry_diagonal (d : Triple α) (row column : Axis) :
    (Tensor.diagonal d).entry row column = if column = row then d.get row else 0.0 := by
  cases row <;> cases column <;> rfl

/-- The tensor of a visited face. -/
def visitedTensor (m : FaceMultipliers α) (cells : Array (Tensor α)) (f : Face) : Tensor α :=
  let cell (i : Int) := cells.getD i.toNat (Tensor.diagonal ⟨0.0, 0.0, 0.0⟩)
  faceTensor (cell f.inside) (cell f.outside) (m.factor f.direction f.inside)
    (m.factor f.direction.opposite f.outside)

namespace CartesianGrid

/-- What a visit offers to the store. -/
def visited (g : CartesianGrid) (precision : Precision) (m : FaceMultipliers α)
    (cells : Array (Tensor α)) (f : Face) : Int × Rounded (Tensor α) :=
  (faceKey f.inside f.outside g.numActive,
    ⟨precision, (visitedTensor m cells f).map precision.cast⟩)

/-- The store after the walk over the faces. -/
def faceStore (g : CartesianGrid) (precision : Precision) (m : FaceMultipliers α)
    (cells : Array (Tensor α)) : FaceStore α :=
  (g.walk.map (g.visited precision m cells)).foldl FaceStore.offer { numActive := g.numActive }

variable {g : CartesianGrid}

omit [Scalar α] in
theorem lt_numActive {i c : Nat} (h : g.active[i]? = some c) : (i : Int) < g.numActive := by
  have := (Array.getElem?_eq_some_iff.mp h).choose
  exact_mod_cast this

theorem visitFace_eq_ok {precision : Precision} {m : FaceMultipliers α}
    {cells : Array (Tensor α)} {s : FaceStore α} {f : Face} (hg : g.Within)
    (hp : m.positive.size = g.numActive) (hn : m.negative.size = g.numActive)
    (hc : cells.size = g.numActive) (hs : s.numActive = g.numActive) (hf : f ∈ g.walk) :
    visitFace precision m cells s f = .ok (s.offer (g.visited precision m cells f)) := by
  obtain ⟨i, j, ci, cj, hf, hi, hj, -⟩ := (mem_walk_iff hg).mp hf
  have hi : 0 ≤ f.inside ∧ f.inside < g.numActive := by
    rw [hf]
    exact ⟨Int.natCast_nonneg i, lt_numActive hi⟩
  have hj : 0 ≤ f.outside ∧ f.outside < g.numActive := by
    rw [hf]
    exact ⟨Int.natCast_nonneg j, lt_numActive hj⟩
  unfold visitFace
  rw [FaceMultipliers.ofFace_eq_ok (congrArg _ hp) (congrArg _ hn) hi hj,
    entryAt_eq_ok (Tensor.diagonal ⟨0.0, 0.0, 0.0⟩) (hc ▸ hi),
    entryAt_eq_ok (Tensor.diagonal ⟨0.0, 0.0, 0.0⟩) (hc ▸ hj)]
  simp only [bind, Except.bind, pure, Except.pure, FaceStore.add_fst, hs]
  rfl

omit [Scalar α] in
theorem numActive_topology (g : CartesianGrid) : g.topology.numActive = g.numActive := by
  simp [topology, Topology.numActive, numActive]

/-- Faces of the walk can be visited in any order and any number of times. -/
theorem foldlM_visitFace {precision : Precision} {deck : Deck α} {m : FaceMultipliers α}
    {cells : Array (Tensor α)} {order : List Face} (hg : g.Within)
    (horder : ∀ f ∈ order, f ∈ g.walk)
    (hm : FaceMultipliers.ofDeck deck g.topology = .ok m) (hc : cells.size = g.numActive) :
    order.foldlM (visitFace precision m cells) { numActive := g.numActive } =
      .ok ((order.map (g.visited precision m cells)).foldl FaceStore.offer
        { numActive := g.numActive }) := by
  obtain ⟨active, ha, hp, hn⟩ := FaceMultipliers.ofDeck_eq_ok_iff.mp hm
  rw [topology_cells, Except.ok.injEq] at ha
  subst ha
  rw [List.foldl_map]
  refine Outcome.foldlM_of_forall
    (fun s : FaceStore α => s.numActive = (g.numActive : Int)) ?_ ?_ rfl
  · exact fun s hs f hf => visitFace_eq_ok hg hp.size_eq hn.size_eq hc hs (horder f hf)
  · exact fun s hs f hf => by rw [FaceStore.numActive_offer, hs]

/-- Going through the walk fills the store. -/
theorem foldlM_walk {precision : Precision} {deck : Deck α} {m : FaceMultipliers α}
    {cells : Array (Tensor α)} (hg : g.Within)
    (hm : FaceMultipliers.ofDeck deck g.topology = .ok m) (hc : cells.size = g.numActive) :
    g.walk.foldlM (visitFace precision m cells) { numActive := g.numActive } =
      .ok (g.faceStore precision m cells) :=
  foldlM_visitFace hg (fun _ hf => hf) hm hc

/-- The walk fills the store wherever the multipliers are there. -/
theorem facePermeabilities_eq {precision : Precision} {deck : Deck α}
    {cells : Array (Tensor α)} (hg : g.Complete) (hc : cells.size = g.numActive) :
    facePermeabilities precision deck g.topology cells =
      (g.faceStore precision · cells) <$> FaceMultipliers.ofDeck deck g.topology := by
  unfold facePermeabilities
  rw [numActive_topology, if_neg (not_not_intro hc),
    show g.topology.faces = .ok g.walk from faces_eq_walk hg]
  cases hm : FaceMultipliers.ofDeck deck g.topology with
  | error fault => rfl
  | ok m => exact foldlM_walk hg.within hm hc

/-- On a box that is too large for its mask the walk may break off. The store is the same
if it does not. -/
theorem eq_faceStore_of_facePermeabilities_eq_ok {precision : Precision} {deck : Deck α}
    {cells : Array (Tensor α)} {store : FaceStore α} (hg : g.Within)
    (h : facePermeabilities precision deck g.topology cells = .ok store) :
    ∃ m, FaceMultipliers.ofDeck deck g.topology = .ok m ∧
      store = g.faceStore precision m cells := by
  unfold facePermeabilities at h
  rw [Outcome.check_eq_ok_iff, not_not, numActive_topology] at h
  obtain ⟨hc, h⟩ := h
  obtain ⟨m, hm, h⟩ := Outcome.bind_eq_ok_iff.mp h
  obtain ⟨faces, hfaces, h⟩ := Outcome.bind_eq_ok_iff.mp h
  have hwalk : faces = g.walk := eq_walk_of_faces_eq_ok hfaces
  rw [hwalk, foldlM_walk hg hm hc] at h
  cases h
  exact ⟨m, hm, rfl⟩

theorem size_cellPermeabilities {precision : Precision} {deck : Deck α}
    {cells : Array (Tensor α)} (hcells : cellPermeabilities precision deck g.topology = .ok cells) :
    cells.size = g.numActive := by
  obtain ⟨-, active, diagonals, ha, hd, rfl⟩ := cellPermeabilities_eq_ok_iff.mp hcells
  rw [topology_cells, Except.ok.injEq] at ha
  subst ha
  rw [Array.size_map, hd.size_eq, numActive]

theorem exists_diagonal {precision : Precision} {deck : Deck α} {cells : Array (Tensor α)}
    (hcells : cellPermeabilities precision deck g.topology = .ok cells) {i c : Nat}
    (hi : g.active[i]? = some c) : ∃ d, deck.diagonal? c = some d ∧
      cells[i]? = some ((Tensor.diagonal d).map precision.cast) := by
  obtain ⟨-, active, diagonals, ha, hd, rfl⟩ := cellPermeabilities_eq_ok_iff.mp hcells
  rw [topology_cells, Except.ok.injEq] at ha
  subst ha
  obtain ⟨d, hd', hout⟩ := hd.exists_entry hi
  refine ⟨d, hd', ?_⟩
  rw [Array.getElem?_map, hout, Option.map_some]

/-- The multipliers must have a value in every active cell. -/
theorem exists_ofDeck_iff {deck : Deck α} : (∃ m, FaceMultipliers.ofDeck deck g.topology = .ok m) ↔
    ∀ d : Direction, ∀ c ∈ g.active, (deck.factor? d.multiplier c).isSome := by
  simp only [FaceMultipliers.ofDeck_eq_ok_iff, topology_cells, Except.ok.injEq, exists_eq_left']
  constructor
  · intro h d c hc
    obtain ⟨m, hp, hn⟩ := h
    obtain ⟨i, hi⟩ := Array.getElem?_of_mem hc
    rw [FaceMultipliers.factor_eq hp hn d hi]
    rfl
  · intro h
    have hread : ∀ positive, ∃ out, Reads (deck.multipliers? positive) g.active out := by
      intro positive
      refine exists_reads_iff.mpr fun c hc => ?_
      obtain ⟨x, hx⟩ := Option.isSome_iff_exists.mp (h ⟨.x, positive⟩ c hc)
      obtain ⟨y, hy⟩ := Option.isSome_iff_exists.mp (h ⟨.y, positive⟩ c hc)
      obtain ⟨z, hz⟩ := Option.isSome_iff_exists.mp (h ⟨.z, positive⟩ c hc)
      simp [Deck.multipliers?, hx, hy, hz]
    obtain ⟨positive, hp⟩ := hread true
    obtain ⟨negative, hn⟩ := hread false
    exact ⟨⟨positive, negative⟩, hp, hn⟩

/-- Multipliers without a value in some active cell are refused by their keyword. -/
theorem exists_ofDeck_eq_error {deck : Deck α}
    (h : ¬∀ d : Direction, ∀ c ∈ g.active, (deck.factor? d.multiplier c).isSome) :
    ∃ (d : Direction) (values : CellValues α), deck.array? d.multiplier = some values ∧
      (∃ c ∈ g.active, values.reals.size ≤ c) ∧
      FaceMultipliers.ofDeck deck g.topology =
        .error (.beyondValues (g.active.foldl max 0) values.reals.size d.multiplier) := by
  rw [← exists_ofDeck_iff] at h
  cases hm : FaceMultipliers.ofDeck deck g.topology with
  | ok m => exact absurd ⟨m, hm⟩ h
  | error fault =>
    have hrefused : ∀ d : Direction, gatherFactor deck d.multiplier g.active = .error fault →
        ∃ (d : Direction) (values : CellValues α), deck.array? d.multiplier = some values ∧
          (∃ c ∈ g.active, values.reals.size ≤ c) ∧
          (.error fault : Except Fault (FaceMultipliers α)) =
            .error (.beyondValues (g.active.foldl max 0) values.reals.size d.multiplier) := by
      intro d hd
      obtain ⟨values, hv, hout, rfl⟩ := gatherFactor_eq_error_iff.mp hd
      exact ⟨d, values, hv, hout, rfl⟩
    simp only [FaceMultipliers.ofDeck, Outcome.bind_eq_error_iff, topology_cells, reduceCtorEq,
      false_or, Except.ok.injEq, exists_eq_left'] at hm
    rcases hm with h | ⟨_, -, h | ⟨_, -, h | ⟨_, -, h | ⟨_, -, h | ⟨_, -, h | ⟨_, -, h⟩⟩⟩⟩⟩⟩
    · exact hrefused ⟨.x, true⟩ h
    · exact hrefused ⟨.x, false⟩ h
    · exact hrefused ⟨.y, true⟩ h
    · exact hrefused ⟨.y, false⟩ h
    · exact hrefused ⟨.z, true⟩ h
    · exact hrefused ⟨.z, false⟩ h
    · cases h

/-- A step to the positive side leads to a later active cell. -/
theorem lt_of_move_positive {i j ci cj : Nat} {axis : Axis} (hi : g.active[i]? = some ci)
    (hj : g.active[j]? = some cj)
    (hloc : g.location cj = (⟨axis, true⟩ : Direction).move (g.location ci)) : i < j := by
  rw [g.active_lt_active hi hj]
  have := g.index_lt_index_move axis (g.location ci)
  rw [← hloc, index_location, index_location] at this
  exact_mod_cast this

variable {precision : Precision} {m : FaceMultipliers α} {cells : Array (Tensor α)}

theorem find?_faceStore_eq (i j : Int) : (g.faceStore precision m cells).find? i j =
    (g.walk.map (g.visited precision m cells)).lookup (faceKey i j g.numActive) := by
  rw [FaceStore.find?, faceStore, FaceStore.numActive_foldl_offer, FaceStore.lookup_foldl_offer]
  simp

/-- A visited face has the key of two active cells exactly if it joins them. -/
theorem eq_of_faceKey_eq (hg : g.Within) {f : Face} (hf : f ∈ g.walk) {i j ci cj : Nat}
    (hi : g.active[i]? = some ci) (hj : g.active[j]? = some cj)
    (hk : faceKey f.inside f.outside g.numActive = faceKey i j g.numActive) :
    f = ⟨i, j, f.direction⟩ ∧ g.location cj = f.direction.move (g.location ci) ∨
      f = ⟨j, i, f.direction⟩ ∧ g.location ci = f.direction.move (g.location cj) := by
  obtain ⟨i', j', ci', cj', hf, hi', hj', hloc⟩ := (mem_walk_iff hg).mp hf
  have hbound : ∀ {k c : Nat}, g.active[k]? = some c → 0 ≤ (k : Int) ∧ (k : Int) < g.numActive :=
    fun h => ⟨Int.natCast_nonneg _, lt_numActive h⟩
  rw [hf, faceKey_eq_iff (hbound hi') (hbound hj') (hbound hi) (hbound hj)] at hk
  rcases hk with ⟨he, he'⟩ | ⟨he, he'⟩
  · obtain rfl : i' = i := by exact_mod_cast he
    obtain rfl : j' = j := by exact_mod_cast he'
    rw [hi, Option.some.injEq] at hi'
    rw [hj, Option.some.injEq] at hj'
    subst hi' hj'
    exact Or.inl ⟨hf, hloc⟩
  · obtain rfl : i' = j := by exact_mod_cast he
    obtain rfl : j' = i := by exact_mod_cast he'
    rw [hj, Option.some.injEq] at hi'
    rw [hi, Option.some.injEq] at hj'
    subst hi' hj'
    exact Or.inr ⟨hf, hloc⟩

/-- The tensor of two cells is the one of the visit from the negative side. -/
theorem find?_faceStore (hg : g.Within) {i j ci cj : Nat} {axis : Axis}
    (hi : g.active[i]? = some ci) (hj : g.active[j]? = some cj)
    (hloc : g.location cj = (⟨axis, true⟩ : Direction).move (g.location ci)) :
    (g.faceStore precision m cells).find? i j =
      some ⟨precision, (visitedTensor m cells ⟨i, j, ⟨axis, true⟩⟩).map precision.cast⟩ := by
  have hmem : (⟨i, j, ⟨axis, true⟩⟩ : Face) ∈ g.walk :=
    (mem_walk_iff hg).mpr ⟨i, j, ci, cj, rfl, hi, hj, hloc⟩
  have hlt := lt_of_move_positive hi hj hloc
  rw [find?_faceStore_eq]
  refine lookup_map_of_first (g.visited precision m cells) g.walk_pairwise hmem
    fun f hf hk => ?_
  rcases eq_of_faceKey_eq hg hf hi hj hk with ⟨he, hmove⟩ | ⟨he, -⟩
  · left
    rw [he, Direction.move_left_cancel (hmove.symm.trans hloc)]
  · right
    rw [he, Int.not_le]
    exact Int.ofNat_lt.mpr hlt

/-- The pairs of adjacent active cells, the one with the lower index first. -/
def AdjacentPair (g : CartesianGrid) (p : Nat × Nat) : Prop :=
  p.1 < p.2 ∧ ∃ ci cj, g.active[p.1]? = some ci ∧ g.active[p.2]? = some cj ∧
    (g.location ci).Adjacent (g.location cj)

theorem mem_keys_faceStore {key : Int} (hg : g.Within) :
    key ∈ (g.faceStore precision m cells).keys ↔
      ∃ p, g.AdjacentPair p ∧ faceKey p.1 p.2 g.numActive = key := by
  have hkey : key ∈ (g.faceStore precision m cells).keys ↔
      ∃ f ∈ g.walk, faceKey f.inside f.outside g.numActive = key := by
    rw [FaceStore.mem_keys_iff, faceStore, FaceStore.lookup_foldl_offer, List.lookup_nil,
      Option.none_or, List.lookup_isSome_iff]
    simp [visited, eq_comm (a := key)]
  rw [hkey]
  constructor
  · intro h
    obtain ⟨f, hf, rfl⟩ := h
    obtain ⟨i, j, ci, cj, hf, hi, hj, hloc⟩ := (mem_walk_iff hg).mp hf
    have hadj := Direction.adjacent_iff_exists_move.mpr ⟨_, hloc⟩
    rw [hf]
    rcases Nat.lt_trichotomy i j with hlt | rfl | hlt
    · exact ⟨(i, j), ⟨hlt, ci, cj, hi, hj, hadj⟩, rfl⟩
    · rw [hi, Option.some.injEq] at hj
      subst hj
      exact absurd hadj (Location.not_adjacent_self _)
    · exact ⟨(j, i), ⟨hlt, cj, ci, hj, hi, hadj.symm⟩, faceKey_comm j i _⟩
  · intro h
    obtain ⟨⟨i, j⟩, ⟨-, ci, cj, hi, hj, hadj⟩, rfl⟩ := h
    obtain ⟨d, hd⟩ := Direction.adjacent_iff_exists_move.mp hadj
    exact ⟨⟨i, j, d⟩, (mem_walk_iff hg).mpr ⟨i, j, ci, cj, rfl, hi, hj, hd⟩, rfl⟩

omit [Scalar α] in
/-- Two pairs of adjacent active cells differ in their keys. -/
theorem AdjacentPair.eq_of_faceKey_eq {p q : Nat × Nat} (hp : g.AdjacentPair p)
    (hq : g.AdjacentPair q)
    (h : faceKey p.1 p.2 g.numActive = faceKey q.1 q.2 g.numActive) : p = q := by
  obtain ⟨hlt, ci, cj, hi, hj, -⟩ := hp
  obtain ⟨hlt', ci', cj', hi', hj', -⟩ := hq
  have hbound : ∀ {k c : Nat}, g.active[k]? = some c → 0 ≤ (k : Int) ∧ (k : Int) < g.numActive :=
    fun h => ⟨Int.natCast_nonneg _, lt_numActive h⟩
  rw [faceKey_eq_iff (hbound hi) (hbound hj) (hbound hi') (hbound hj')] at h
  rw [Prod.ext_iff]
  omega

/-- The keys are those of the pairs of adjacent active cells. Each pair comes once. -/
theorem exists_keys_faceStore_eq (hg : g.Within) : ∃ pairs : List (Nat × Nat), pairs.Nodup ∧
    (∀ p, p ∈ pairs ↔ g.AdjacentPair p) ∧
      (g.faceStore precision m cells).keys =
        pairs.map fun p => faceKey p.1 p.2 g.numActive := by
  have hnodup : (g.faceStore precision m cells).keys.Nodup := by
    rw [FaceStore.keys, FaceStore.toList, List.map_reverse, List.nodup_reverse]
    exact FaceStore.keys_foldl_offer_nodup _ List.nodup_nil
  have hpairs : ∃ pairs : List {p // g.AdjacentPair p},
      pairs.map (fun p => faceKey p.1.1 p.1.2 g.numActive) =
        (g.faceStore precision m cells).keys := by
    rw [← Set.mem_range, Set.range_list_map]
    intro key hkey
    obtain ⟨p, hp, rfl⟩ := (mem_keys_faceStore hg).mp hkey
    exact ⟨⟨p, hp⟩, rfl⟩
  obtain ⟨pairs, hpairs⟩ := hpairs
  have hkeys : (g.faceStore precision m cells).keys =
      (pairs.map Subtype.val).map fun p => faceKey p.1 p.2 g.numActive := by
    rw [← hpairs, List.map_map]
    rfl
  refine ⟨pairs.map Subtype.val, ?_, fun p => ⟨fun hp => ?_, fun hp => ?_⟩, hkeys⟩
  · rw [hkeys] at hnodup
    exact hnodup.of_map
  · obtain ⟨q, -, rfl⟩ := List.mem_map.mp hp
    exact q.2
  · have hmem : faceKey p.1 p.2 g.numActive ∈ (g.faceStore precision m cells).keys :=
      (mem_keys_faceStore hg).mpr ⟨p, hp, rfl⟩
    rw [hkeys, List.mem_map] at hmem
    obtain ⟨q, hq, hk⟩ := hmem
    obtain ⟨q, hq', rfl⟩ := List.mem_map.mp hq
    rw [← q.2.eq_of_faceKey_eq hp hk]
    exact hq

/-- Cells that are not adjacent share no face. -/
theorem find?_faceStore_eq_none (hg : g.Within) {i j ci cj : Nat}
    (hi : g.active[i]? = some ci) (hj : g.active[j]? = some cj)
    (h : ¬(g.location ci).Adjacent (g.location cj)) :
    (g.faceStore precision m cells).find? i j = none := by
  rw [find?_faceStore_eq]
  refine lookup_map_eq_none fun f hf hk => h ?_
  rcases eq_of_faceKey_eq hg hf hi hj hk with ⟨-, hmove⟩ | ⟨-, hmove⟩
  · exact Direction.adjacent_iff_exists_move.mpr ⟨_, hmove⟩
  · exact (Direction.adjacent_iff_exists_move.mpr ⟨_, hmove⟩).symm

/-- Exactly the adjacent cells share a face. -/
theorem contains_faceStore_iff (hg : g.Within) {i j ci cj : Nat} (hi : g.active[i]? = some ci)
    (hj : g.active[j]? = some cj) : (g.faceStore precision m cells).contains i j ↔
      (g.location ci).Adjacent (g.location cj) := by
  constructor
  · intro h
    by_contra hadj
    rw [FaceStore.contains, find?_faceStore_eq_none hg hi hj hadj] at h
    cases h
  · intro h
    obtain ⟨axis, hloc | hloc⟩ := Direction.exists_axis_of_adjacent h
    · rw [FaceStore.contains, find?_faceStore hg hi hj hloc]
      rfl
    · rw [FaceStore.contains, FaceStore.find?_comm, find?_faceStore hg hj hi hloc]
      rfl

end CartesianGrid
end BlackOil

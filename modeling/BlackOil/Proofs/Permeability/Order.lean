import BlackOil.Proofs.Grid.Visits
import BlackOil.Proofs.Permeability.Exact
import BlackOil.Proofs.Scalar.Exact

/-!
# The order of the faces

A pair of adjacent cells is seen from both sides, and the first visit decides the tensor
of the pair. Over exact scalars the two visits offer the same tensor: from the other side
the cells have changed places together with their multipliers, and the harmonic mean is
symmetric. The faces of a grid may therefore be visited in any order. As a map the store
is the same.
-/
namespace BlackOil

namespace Face

/-- The face seen from its outside cell. -/
def mirror (f : Face) : Face := ⟨f.outside, f.inside, f.direction.opposite⟩

@[simp] theorem mirror_mirror (f : Face) : f.mirror.mirror = f := by simp [mirror]

end Face

theorem harmonicMean_comm (x y : Exact) : harmonicMean x y = harmonicMean y x := by
  unfold harmonicMean
  rw [Exact.mul_comm y x, Exact.mul_right_comm 2.0 y x, Exact.add_comm y x]

theorem Triple.combine_comm {β γ : Type} {f : β → β → γ} (hf : ∀ a b, f a b = f b a)
    (s t : Triple β) : combine f s t = combine f t s := by
  rw [combine, combine, hf s.x, hf s.y, hf s.z]

/-- The two cells of a face may change places together with their multipliers. -/
theorem faceTensor_comm (inside outside : Tensor Exact) (v w : Exact) :
    faceTensor inside outside v w = faceTensor outside inside w v :=
  Triple.combine_comm (Triple.combine_comm harmonicMean_comm) _ _

/-- From the other side a face has the same two multipliers in exchanged roles. -/
theorem FaceMultipliers.ofFace_mirror_eq_ok_iff {α : Type} {m : FaceMultipliers α} {f : Face}
    {v w : α} : m.ofFace f.mirror = .ok (w, v) ↔ m.ofFace f = .ok (v, w) := by
  obtain ⟨inside, outside, axis, positive⟩ := f
  cases positive <;>
    simp only [ofFace, Face.mirror, Direction.opposite, Outcome.bind_eq_ok_iff,
      Outcome.pure_eq_ok_iff, Prod.mk.injEq, Bool.not_true, Bool.not_false, Bool.false_eq_true,
      if_true, if_false]
  all_goals
    constructor
    · rintro ⟨s, hs, t, ht, rfl, rfl⟩
      exact ⟨t, ht, s, hs, rfl, rfl⟩
    · rintro ⟨s, hs, t, ht, rfl, rfl⟩
      exact ⟨t, ht, s, hs, rfl, rfl⟩

/-- In a list that has one value for each key every entry is found under its key. -/
theorem lookup_eq_some_iff_mem {β : Type} {l : List (Int × β)}
    (hl : ∀ e ∈ l, ∀ e' ∈ l, e.1 = e'.1 → e = e') {key : Int} {b : β} :
    l.lookup key = some b ↔ (key, b) ∈ l := by
  have hmem : ∀ {c}, l.lookup key = some c → (key, c) ∈ l := by
    intro c hc
    obtain ⟨before, after, rfl, -⟩ := List.lookup_eq_some_iff.mp hc
    simp
  constructor
  · exact hmem
  · intro hb
    have hsome : (l.lookup key).isSome := List.lookup_isSome_iff.mpr ⟨_, hb, by simp⟩
    obtain ⟨c, hc⟩ := Option.isSome_iff_exists.mp hsome
    rw [hc, (Prod.mk.inj (hl _ (hmem hc) _ hb rfl)).2]

/-- The look-up in such a list does not depend on its order. -/
theorem lookup_perm {β : Type} {l l' : List (Int × β)} (h : l'.Perm l)
    (hl : ∀ e ∈ l, ∀ e' ∈ l, e.1 = e'.1 → e = e') (key : Int) :
    l'.lookup key = l.lookup key := by
  have hl' : ∀ e ∈ l', ∀ e' ∈ l', e.1 = e'.1 → e = e' :=
    fun e he e' he' => hl e (h.mem_iff.mp he) e' (h.mem_iff.mp he')
  ext b
  rw [lookup_eq_some_iff_mem hl, lookup_eq_some_iff_mem hl', h.mem_iff]

namespace FaceStore
variable {α : Type}

/-- Two stores are the same map from pairs of cells to tensors. -/
structure SameMap (s s' : FaceStore α) : Prop where
  numActive : s'.numActive = s.numActive
  /-- The same tensors stand under the same keys. Only their order may differ. -/
  toList : s'.toList.Perm s.toList
  get : ∀ first second, s'.get first second = s.get first second

theorem mem_toList_iff {s : FaceStore α} (hs : (s.entries.map Prod.fst).Nodup) {key : Int}
    {tensor : Rounded (Tensor α)} :
    (key, tensor) ∈ s.toList ↔ s.entries.lookup key = some tensor := by
  have hone := List.inj_on_of_nodup_map hs
  rw [toList, List.mem_reverse, lookup_eq_some_iff_mem fun e he e' he' => hone he he']

/-- Two stores without doubled keys are the same map if they agree under every key. -/
theorem sameMap_of_lookup_eq {s s' : FaceStore α} (hs : (s.entries.map Prod.fst).Nodup)
    (hs' : (s'.entries.map Prod.fst).Nodup) (hn : s'.numActive = s.numActive)
    (h : ∀ key, s'.entries.lookup key = s.entries.lookup key) : SameMap s s' where
  numActive := hn
  toList := by
    have hnodup : ∀ {t : FaceStore α}, (t.entries.map Prod.fst).Nodup → t.toList.Nodup :=
      fun ht => List.nodup_reverse.mpr (ht.of_map _)
    rw [List.perm_ext_iff_of_nodup (hnodup hs') (hnodup hs)]
    rintro ⟨key, tensor⟩
    rw [mem_toList_iff hs, mem_toList_iff hs', h]
  get first second := by rw [get, get, find?, find?, hn, h]

/-- Tensors that are offered in another order make the same map, provided that no two of
them compete for a key. -/
theorem sameMap_foldl_offer {entries entries' : List (Int × Rounded (Tensor α))}
    (h : entries'.Perm entries) (hone : ∀ e ∈ entries, ∀ e' ∈ entries, e.1 = e'.1 → e = e')
    (n : Int) : SameMap (entries.foldl offer { numActive := n })
      (entries'.foldl offer { numActive := n }) := by
  refine sameMap_of_lookup_eq (keys_foldl_offer_nodup _ List.nodup_nil)
    (keys_foldl_offer_nodup _ List.nodup_nil) ?_ fun key => ?_
  · rw [numActive_foldl_offer, numActive_foldl_offer]
  · rw [lookup_foldl_offer, lookup_foldl_offer, lookup_perm h hone]

end FaceStore

namespace CartesianGrid
variable {g : CartesianGrid} {m : FaceMultipliers Exact} {cells : Array (Tensor Exact)}

/-- Both visits of a pair of cells offer the same tensor under the same key. -/
theorem visited_mirror (g : CartesianGrid) (precision : Precision) (m : FaceMultipliers Exact)
    (cells : Array (Tensor Exact)) (f : Face) :
    g.visited precision m cells f.mirror = g.visited precision m cells f := by
  have htensor : visitedTensor m cells f.mirror = visitedTensor m cells f := by
    simp only [visitedTensor, Face.mirror, Direction.opposite_opposite]
    exact faceTensor_comm _ _ _ _
  rw [visited, htensor]
  simp only [Face.mirror]
  rw [faceKey_comm]
  rfl

theorem mirror_mem_walk (hg : g.Complete) {f : Face} (hf : f ∈ g.walk) : f.mirror ∈ g.walk :=
  (visits_walk hg).opposite_mem_iff.mp hf

/-- Only the two visits of one pair of cells share a key. -/
theorem eq_or_eq_mirror (hg : g.Complete) {f f' : Face} (hf : f ∈ g.walk) (hf' : f' ∈ g.walk)
    (hkey : faceKey f.inside f.outside g.numActive = faceKey f'.inside f'.outside g.numActive) :
    f = f' ∨ f = f'.mirror := by
  obtain ⟨i, j, ci, cj, he, hi, hj, hloc⟩ := (mem_walk_iff hg.within).mp hf'
  rw [he] at hkey
  rcases eq_of_faceKey_eq hg.within hf hi hj hkey with ⟨hfi, hmove⟩ | ⟨hfj, hmove⟩
  · left
    rw [hfi, he, Direction.move_left_cancel (hmove.symm.trans hloc)]
  · right
    have hback : f'.direction.opposite.move (g.location cj) = g.location ci := by
      rw [hloc, Direction.move_opposite_move]
    rw [hfj, he, Direction.move_left_cancel (hmove.symm.trans hback.symm)]
    rfl

/-- No two visits compete for a key with different tensors. -/
theorem visited_eq_of_key_eq (hg : g.Complete) (precision : Precision) :
    ∀ e ∈ g.walk.map (g.visited precision m cells),
      ∀ e' ∈ g.walk.map (g.visited precision m cells), e.1 = e'.1 → e = e' := by
  intro e he e' he' hkey
  obtain ⟨f, hf, rfl⟩ := List.mem_map.mp he
  obtain ⟨f', hf', rfl⟩ := List.mem_map.mp he'
  rcases eq_or_eq_mirror hg hf hf' hkey with rfl | rfl
  · rfl
  · exact visited_mirror g precision m cells f'

/-- A visited face has both its multipliers. -/
theorem exists_ofFace {deck : Deck Exact} (hg : g.Complete)
    (hm : FaceMultipliers.ofDeck deck g.topology = .ok m) {f : Face} (hf : f ∈ g.walk) :
    ∃ v w, m.ofFace f = .ok (v, w) := by
  obtain ⟨active, ha, hp, hn⟩ := FaceMultipliers.ofDeck_eq_ok_iff.mp hm
  rw [topology_cells, Except.ok.injEq] at ha
  subst ha
  obtain ⟨i, j, ci, cj, he, hi, hj, -⟩ := (mem_walk_iff hg.within).mp hf
  have hinside : 0 ≤ f.inside ∧ f.inside < g.numActive := by
    rw [he]
    exact ⟨Int.natCast_nonneg i, lt_numActive hi⟩
  have houtside : 0 ≤ f.outside ∧ f.outside < g.numActive := by
    rw [he]
    exact ⟨Int.natCast_nonneg j, lt_numActive hj⟩
  exact ⟨_, _, FaceMultipliers.ofFace_eq_ok (congrArg _ hp.size_eq) (congrArg _ hn.size_eq)
    hinside houtside⟩

theorem rel_facePermeabilities_perm (hg : g.Complete) (precision : Precision)
    (deck : Deck Exact) (cells : Array (Tensor Exact)) {order : List Face}
    (horder : order.Perm g.walk) :
    Outcome.Rel FaceStore.SameMap (facePermeabilities precision deck g.topology cells)
      (facePermeabilities precision deck { g.topology with faces := .ok order } cells) := by
  have hn : ({ g.topology with faces := .ok order } : Topology).numActive = g.numActive :=
    g.numActive_topology
  unfold facePermeabilities
  rw [show g.topology.faces = .ok g.walk from faces_eq_walk hg, hn, numActive_topology]
  by_cases hc : cells.size = g.numActive
  · rw [if_neg (not_not_intro hc), if_neg (not_not_intro hc)]
    refine Outcome.Rel.bind_same fun m hm => ?_
    rw [Outcome.ok_bind, Outcome.ok_bind, foldlM_walk hg.within hm hc,
      foldlM_visitFace hg.within (fun f hf => horder.mem_iff.mp hf) hm hc]
    exact .ok (FaceStore.sameMap_foldl_offer (horder.map _) (visited_eq_of_key_eq hg precision) _)
  · rw [if_pos hc, if_pos hc]
    exact .error _

/-- The faces of a grid may be visited in any order: either both walks are refused with the
same fault, or both fill the same map. Each face comes from both sides, with its two
multipliers exchanged. -/
theorem facePermeabilities_perm {sizes : List Int} {mask : Option (List Bool)}
    (hg : ofMask sizes mask = .ok g) (hfits : Word.fits g.dimensions.count)
    (precision : Precision) (deck : Deck Exact) (cells : Array (Tensor Exact)) :
    ∃ faces, g.topology.faces = .ok faces ∧
      (∀ order, order.Perm faces →
        Outcome.Rel FaceStore.SameMap (facePermeabilities precision deck g.topology cells)
          (facePermeabilities precision deck { g.topology with faces := .ok order } cells)) ∧
      ∀ m, FaceMultipliers.ofDeck deck g.topology = .ok m →
        (cells.size = g.numActive →
          ∃ store, facePermeabilities precision deck g.topology cells = .ok store) ∧
        ∀ f ∈ faces, f.mirror ∈ faces ∧
          ∃ v w, m.ofFace f = .ok (v, w) ∧ m.ofFace f.mirror = .ok (w, v) := by
  have hcomplete := ofMask_complete hg hfits
  refine ⟨g.walk, faces_eq_walk hcomplete, fun order horder => ?_, fun m hm => ⟨fun hc => ?_,
    fun f hf => ⟨mirror_mem_walk hcomplete hf, ?_⟩⟩⟩
  · exact rel_facePermeabilities_perm hcomplete precision deck cells horder
  · rw [facePermeabilities_eq hcomplete hc, hm]
    exact ⟨_, rfl⟩
  · obtain ⟨v, w, hvw⟩ := exists_ofFace hcomplete hm hf
    exact ⟨v, w, hvw, FaceMultipliers.ofFace_mirror_eq_ok_iff.mpr hvw⟩

/-- The one face of a row of two cells, seen from the other side first. -/
theorem facePermeabilities_perm_pair : ∃ store store',
    facePermeabilities .double (pairDeck #[.value 3, .value 1]) pairGrid.topology pairCells =
        .ok store ∧
      facePermeabilities .double (pairDeck #[.value 3, .value 1])
          { pairGrid.topology with faces := .ok pairGrid.walk.reverse } pairCells = .ok store' ∧
      store.SameMap store' := by
  have hg : ofMask [2, 1, 1] none = .ok pairGrid := rfl
  obtain ⟨faces, hfaces, hperm, hstore⟩ := facePermeabilities_perm hg (by decide) .double
    (pairDeck #[.value 3, .value 1]) pairCells
  have hwalk : faces = pairGrid.walk := eq_walk_of_faces_eq_ok hfaces
  have hfactors : ∀ d ∈ Direction.all, ∀ c ∈ pairGrid.active,
      ((pairDeck #[.value 3, .value 1]).factor? d.multiplier c).isSome := by decide +kernel
  obtain ⟨m, hm⟩ := exists_ofDeck_iff.mpr fun d => hfactors d d.mem_all
  obtain ⟨store, hs⟩ := (hstore m hm).1 rfl
  have hrel := hperm pairGrid.walk.reverse (hwalk ▸ List.reverse_perm pairGrid.walk)
  rw [hs] at hrel
  obtain ⟨store', hs', hsame⟩ := hrel.exists_ok
  exact ⟨store, store', hs, hs', hsame⟩

end CartesianGrid
end BlackOil

import BlackOil.Proofs.Permeability.Face
import BlackOil.Scalar.Exact

/-!
# Exact face permeabilities

Over the rational numbers the tensor of a face is the harmonic mean, entry by entry, of
the tensors of its two cells, each times the multiplier of the cell on that face. The mean
of two numbers whose product is not positive is zero.
-/
namespace BlackOil

/-- The harmonic mean of two rational numbers. -/
def rationalMean (x y : Rat) : Rat := if x * y ≤ 0 then 0 else 2 * x * y / (x + y)

theorem harmonicMean_value (x y : Rat) :
    harmonicMean (.value x) (.value y) = Exact.value (rationalMean x y) := by
  have hzero : (0.0 : Exact) = .value 0 := by decide +kernel
  have htwo : (2.0 : Exact) = .value 2 := by decide +kernel
  unfold harmonicMean rationalMean
  rw [hzero, htwo, Exact.value_mul]
  by_cases h : x * y ≤ 0
  · rw [if_pos ((Exact.value_le _ _).mpr h), if_pos h]
  · have hsum : x + y ≠ 0 := by
      intro hsum
      rw [eq_neg_of_add_eq_zero_left hsum] at h
      nlinarith [mul_self_nonneg y]
    rw [if_neg (mt (Exact.value_le _ _).mp h), if_neg h, Exact.value_mul, Exact.value_mul,
      Exact.value_add, Exact.value_div hsum]

/-- All cell values of a deck are rational numbers. -/
def Deck.IsRational (deck : Deck Exact) : Prop :=
  ∀ entry ∈ deck.arrays.entries, ∀ x ∈ entry.2.reals, x ≠ .undefined

instance (deck : Deck Exact) : Decidable deck.IsRational :=
  inferInstanceAs (Decidable (∀ entry ∈ deck.arrays.entries, ∀ x ∈ entry.2.reals, x ≠ .undefined))

namespace Deck.IsRational
variable {deck : Deck Exact} {keyword other : String} {cell : Nat} {x : Exact}

theorem of_reals {values : CellValues Exact} (h : deck.IsRational)
    (hv : deck.array? keyword = some values) (hx : values.reals[cell]? = some x) :
    ∃ q, x = .value q := by
  cases x with
  | value q => exact ⟨q, rfl⟩
  | undefined => exact absurd rfl (h _ (mem_of_array? hv) _ (Array.mem_of_getElem? hx))

theorem of_value? (h : deck.IsRational) (hx : deck.value? keyword cell = some x) :
    ∃ q, x = .value q := by
  obtain ⟨values, hv, hx⟩ := Option.bind_eq_some_iff.mp hx
  exact h.of_reals hv hx

theorem of_valueOr? (h : deck.IsRational) (hx : deck.valueOr? keyword other cell = some x) :
    ∃ q, x = .value q := by
  unfold valueOr? at hx
  split at hx
  · exact h.of_value? hx
  · exact h.of_value? hx

theorem of_factor? (h : deck.IsRational) (hx : deck.factor? keyword cell = some x) :
    ∃ q, x = .value q := by
  unfold factor? at hx
  split at hx
  · cases hx
    exact ⟨1.0, rfl⟩
  · rename_i values hv
    exact h.of_reals hv hx

theorem of_permeability? {axis : Axis} (h : deck.IsRational)
    (hx : deck.permeability? cell axis = some x) : ∃ q, x = .value q := by
  have hmul : ∀ {a b : Option Exact}, (∀ y, a = some y → ∃ q, y = .value q) →
      (∀ y, b = some y → ∃ q, y = .value q) →
      (do return (← a) * (← b)) = some x → ∃ q, x = .value q := by
    intro a b ha hb hx
    simp only [bind, Option.bind_eq_some_iff, pure, Option.some.injEq] at hx
    obtain ⟨y, hy, z, hz, rfl⟩ := hx
    obtain ⟨q, rfl⟩ := ha y hy
    obtain ⟨r, rfl⟩ := hb z hz
    exact ⟨q * r, rfl⟩
  cases axis with
  | x => exact hmul (fun _ => h.of_value?) (fun _ => h.of_factor?) hx
  | y => exact hmul (fun _ => h.of_valueOr?) (fun _ => h.of_factor?) hx
  | z => exact h.of_valueOr? hx

end Deck.IsRational

namespace CartesianGrid
variable {g : CartesianGrid} {deck : Deck Exact} {m : FaceMultipliers Exact}
  {cells : Array (Tensor Exact)}

theorem entry_visitedTensor (hdeck : deck.IsRational)
    (hm : FaceMultipliers.ofDeck deck g.topology = .ok m)
    (hcells : cellPermeabilities .double deck g.topology = .ok cells) {i j ci cj : Nat}
    (hi : g.active[i]? = some ci) (hj : g.active[j]? = some cj) (d : Direction) (row : Axis) :
    ∃ k l v w : Rat, deck.permeability? ci row = some (.value k) ∧
      deck.permeability? cj row = some (.value l) ∧
      deck.factor? d.multiplier ci = some (.value v) ∧
      deck.factor? d.opposite.multiplier cj = some (.value w) ∧
      ∀ column, (visitedTensor m cells ⟨i, j, d⟩).entry row column =
        if column = row then .value (rationalMean (k * v) (l * w)) else .value 0 := by
  obtain ⟨active, ha, hp, hn⟩ := FaceMultipliers.ofDeck_eq_ok_iff.mp hm
  rw [topology_cells, Except.ok.injEq] at ha
  subst ha
  have hv := FaceMultipliers.factor_eq hp hn d hi
  have hw := FaceMultipliers.factor_eq hp hn d.opposite hj
  obtain ⟨s, hs, hsi⟩ := exists_diagonal hcells hi
  obtain ⟨t, ht, htj⟩ := exists_diagonal hcells hj
  have hk := Deck.get_of_diagonal? hs row
  have hl := Deck.get_of_diagonal? ht row
  obtain ⟨v, hv'⟩ := hdeck.of_factor? hv
  obtain ⟨w, hw'⟩ := hdeck.of_factor? hw
  obtain ⟨k, hk'⟩ := hdeck.of_permeability? hk
  obtain ⟨l, hl'⟩ := hdeck.of_permeability? hl
  refine ⟨k, l, v, w, hk' ▸ hk, hl' ▸ hl, hv' ▸ hv, hw' ▸ hw, fun column => ?_⟩
  have hzero : (0.0 : Exact) = .value 0 := by decide +kernel
  simp only [visitedTensor, faceTensor, Tensor.entry_combine, Tensor.entry_map, Int.toNat_natCast,
    Array.getD_eq_getD_getElem?, hsi, htj, Option.getD_some, Precision.cast,
    Tensor.entry_diagonal]
  split
  · rw [hv', hw', hk', hl']
    exact harmonicMean_value (k * v) (l * w)
  · rw [hv', hw', hzero, Exact.value_mul, Exact.value_mul, harmonicMean_value]
    simp [rationalMean]

/-- What the store of a grid holds: a tensor for each pair of adjacent active cells, made
of the permeabilities and the multipliers that the deck gives. -/
structure Stores (g : CartesianGrid) (deck : Deck Exact) (store : FaceStore Exact) : Prop where
  /-- The locations that adjacency is about are those of the cells. -/
  places : ∀ {i c : Nat}, g.active[i]? = some c → g.Places (g.location c) c
  /-- The keys are those of the pairs of adjacent active cells, each once. -/
  keys : ∃ pairs : List (Nat × Nat), pairs.Nodup ∧ (∀ p, p ∈ pairs ↔ g.AdjacentPair p) ∧
    store.keys = pairs.map fun p => faceKey p.1 p.2 g.numActive
  contains_iff : ∀ {i j ci cj : Nat}, g.active[i]? = some ci → g.active[j]? = some cj →
    (store.contains i j ↔ (g.location ci).Adjacent (g.location cj))
  /-- The cell `j` lies on the positive side of the cell `i`. -/
  entries : ∀ {i j ci cj : Nat} {axis : Axis}, g.active[i]? = some ci →
    g.active[j]? = some cj → g.location cj = (⟨axis, true⟩ : Direction).move (g.location ci) →
    ∃ tensor, store.get i j = .ok ⟨.double, tensor⟩ ∧ store.get j i = .ok ⟨.double, tensor⟩ ∧
      ∀ row, ∃ k l v w : Rat, deck.permeability? ci row = some (.value k) ∧
        deck.permeability? cj row = some (.value l) ∧
        deck.factor? (Direction.multiplier ⟨axis, true⟩) ci = some (.value v) ∧
        deck.factor? (Direction.multiplier ⟨axis, false⟩) cj = some (.value w) ∧
        ∀ column, tensor.entry row column =
          if column = row then .value (rationalMean (k * v) (l * w)) else .value 0

theorem stores_faceStore (hg : g.Complete) (hdeck : deck.IsRational)
    (hm : FaceMultipliers.ofDeck deck g.topology = .ok m)
    (hcells : cellPermeabilities .double deck g.topology = .ok cells) :
    g.Stores deck (g.faceStore .double m cells) where
  places := places_location hg.within
  keys := exists_keys_faceStore_eq hg.within
  contains_iff := contains_faceStore_iff hg.within
  entries := by
    intro i j ci cj axis hi hj hloc
    have hfind : (g.faceStore .double m cells).find? i j =
        some ⟨.double, visitedTensor m cells ⟨i, j, ⟨axis, true⟩⟩⟩ :=
      find?_faceStore hg.within hi hj hloc
    refine ⟨visitedTensor m cells ⟨i, j, ⟨axis, true⟩⟩, ?_, ?_, fun row => ?_⟩
    · exact FaceStore.get_eq_ok_iff.mpr hfind
    · exact FaceStore.get_eq_ok_iff.mpr ((FaceStore.find?_comm _ _ _).trans hfind)
    · exact entry_visitedTensor hdeck hm hcells hi hj ⟨axis, true⟩ row

/-- From a deck of rational numbers the store of a grid is filled exactly if each given
multiplier has a value in every active cell, and is refused by the keyword otherwise. -/
theorem facePermeabilities_spec (hdeck : deck.IsRational) {sizes : List Int}
    {mask : Option (List Bool)} (hg : ofMask sizes mask = .ok g)
    (hfits : Word.fits g.dimensions.count)
    (hcells : cellPermeabilities .double deck g.topology = .ok cells) :
    ((∀ d : Direction, ∀ c ∈ g.active, (deck.factor? d.multiplier c).isSome) →
      ∃ store, facePermeabilities .double deck g.topology cells = .ok store ∧
        g.Stores deck store) ∧
    ((¬∀ d : Direction, ∀ c ∈ g.active, (deck.factor? d.multiplier c).isSome) →
      ∃ (d : Direction) (values : CellValues Exact), deck.array? d.multiplier = some values ∧
        (∃ c ∈ g.active, values.reals.size ≤ c) ∧
        facePermeabilities .double deck g.topology cells =
          .error (.beyondValues (g.active.foldl max 0) values.reals.size d.multiplier)) := by
  have hcomplete := ofMask_complete hg hfits
  have hsize : cells.size = g.numActive := size_cellPermeabilities hcells
  rw [facePermeabilities_eq hcomplete hsize]
  constructor
  · intro h
    obtain ⟨m, hm⟩ := exists_ofDeck_iff.mpr h
    rw [hm]
    exact ⟨_, rfl, stores_faceStore hcomplete hdeck hm hcells⟩
  · intro h
    obtain ⟨d, values, hv, hout, hm⟩ := exists_ofDeck_eq_error h
    rw [hm]
    exact ⟨d, values, hv, hout, rfl⟩

/-- A deck for two cells in a row with multipliers between them. -/
def pairDeck (multx : Array Exact) : Deck Exact where
  arrays := ⟨[("PERMX", .real #[.value 1, .value 2]), ("MULTX", .real multx)], by simp⟩

/-- Two cells in a row. -/
def pairGrid : CartesianGrid where
  dimensions := ⟨2, 1, 1, by decide, by decide, by decide⟩
  mask := [true, true]

def pairCells : Array (Tensor Exact) :=
  #[Tensor.diagonal ⟨.value 1, .value 1, .value 1⟩, Tensor.diagonal ⟨.value 2, .value 2, .value 2⟩]

/-- The permeability is the mean of 3 times 1 and 1 times 2. -/
theorem facePermeabilities_spec_pair : ∃ store,
    facePermeabilities .double (pairDeck #[.value 3, .value 1]) pairGrid.topology pairCells =
        .ok store ∧
      pairGrid.Stores (pairDeck #[.value 3, .value 1]) store ∧ store.keys = [1] ∧
      store.get 1 0 = .ok ⟨.double, Tensor.diagonal ⟨2.4, 2.4, 2.4⟩⟩ := by
  have hg : ofMask [2, 1, 1] none = .ok pairGrid := rfl
  have hall : ∀ d ∈ Direction.all, ∀ c ∈ pairGrid.active,
      ((pairDeck #[.value 3, .value 1]).factor? d.multiplier c).isSome := by decide +kernel
  have hcells : cellPermeabilities .double (pairDeck #[.value 3, .value 1]) pairGrid.topology =
      .ok pairCells := by decide +kernel
  obtain ⟨store, hstore, hstores⟩ :=
    (facePermeabilities_spec (by decide +kernel) hg (by decide) hcells).1
      fun d => hall d d.mem_all
  have hheld : (facePermeabilities .double (pairDeck #[.value 3, .value 1]) pairGrid.topology
      pairCells).toOption.all fun store => store.keys = [1] ∧
        store.get 1 0 = .ok ⟨.double, Tensor.diagonal ⟨2.4, 2.4, 2.4⟩⟩ := by decide +kernel
  rw [hstore] at hheld
  exact ⟨store, hstore, hstores, of_decide_eq_true hheld⟩

/-- The store is not always filled: multipliers may lack a value for an active cell. -/
theorem not_forall_stores : ¬∀ (deck : Deck Exact) (sizes : List Int) (mask : Option (List Bool))
    (g : CartesianGrid) (cells : Array (Tensor Exact)), deck.IsRational →
      ofMask sizes mask = .ok g → Word.fits g.dimensions.count →
      cellPermeabilities .double deck g.topology = .ok cells →
      ∃ store, facePermeabilities .double deck g.topology cells = .ok store ∧
        g.Stores deck store := by
  intro h
  have hg : ofMask [2, 1, 1] none = .ok pairGrid := rfl
  obtain ⟨store, hs, -⟩ := h (pairDeck #[.value 3]) [2, 1, 1] none pairGrid pairCells
    (by decide +kernel) hg (by decide) (by decide +kernel)
  have hshort : ¬∀ d : Direction, ∀ c ∈ pairGrid.active,
      ((pairDeck #[.value 3]).factor? d.multiplier c).isSome := by
    intro hall
    exact absurd (hall ⟨.x, true⟩ 1 (by decide +kernel)) (by decide +kernel)
  obtain ⟨_, _, -, -, hm⟩ := exists_ofDeck_eq_error hshort
  have hcomplete : pairGrid.Complete := rfl
  rw [facePermeabilities_eq hcomplete rfl, hm] at hs
  cases hs

end CartesianGrid
end BlackOil

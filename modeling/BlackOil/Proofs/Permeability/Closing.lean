import BlackOil.Proofs.Permeability.Order
import Mathlib.Algebra.Order.Group.MinMax

/-!
# Closed connections

A face joins the scaled entries of its two cells: a permeability of each, times the
multiplier of the cell on that face. An entry that is not positive closes the connection to
one that is not negative, and two positive entries are joined by a value between them that
is near the smaller one. Two negative entries have a positive product. They do not close the
connection, but are joined by a negative value.
-/
namespace BlackOil

/-- A value that is not positive on either side closes a connection. Otherwise the
connection lies between the two values and does not exceed twice the smaller one. -/
structure Connects (x y z : Rat) : Prop where
  nonneg : 0 ≤ z
  closed : x ≤ 0 ∨ y ≤ 0 → z = 0
  within : 0 < x → 0 < y → min x y ≤ z ∧ z ≤ max x y
  le_twice : 0 < x → 0 < y → z ≤ 2 * min x y

theorem rationalMean_comm (x y : Rat) : rationalMean x y = rationalMean y x := by
  unfold rationalMean
  rw [mul_comm y x, mul_right_comm 2 y x, add_comm y x]

/-- The mean changes its sign with both values. -/
theorem rationalMean_neg (x y : Rat) : rationalMean (-x) (-y) = -rationalMean x y := by
  unfold rationalMean
  rw [neg_mul_neg]
  split
  · rw [neg_zero]
  · rw [← neg_add, mul_assoc, neg_mul_neg, ← mul_assoc, div_neg]

theorem rationalMean_of_le {x y : Rat} (hx : 0 < x) (hle : x ≤ y) :
    x ≤ rationalMean x y ∧ rationalMean x y ≤ y ∧ rationalMean x y ≤ 2 * x := by
  have hy : 0 < y := hx.trans_le hle
  have hsum : 0 < x + y := add_pos hx hy
  have hxx : x * x ≤ x * y := mul_le_mul_of_nonneg_left hle hx.le
  have hxy : x * y ≤ y * y := mul_le_mul_of_nonneg_right hle hy.le
  rw [rationalMean, if_neg (not_le.mpr (mul_pos hx hy)), le_div_iff₀ hsum, div_le_iff₀ hsum,
    div_le_iff₀ hsum]
  refine ⟨?_, ?_, ?_⟩
  · linarith
  · linarith
  · linarith [mul_pos hx hx]

/-- The mean of two positive values is near the smaller one. -/
theorem rationalMean_of_pos {x y : Rat} (hx : 0 < x) (hy : 0 < y) :
    min x y ≤ rationalMean x y ∧ rationalMean x y ≤ max x y ∧
      rationalMean x y ≤ 2 * min x y := by
  rcases le_total x y with hle | hle
  · rw [min_eq_left hle, max_eq_right hle]
    exact rationalMean_of_le hx hle
  · rw [min_eq_right hle, max_eq_left hle, rationalMean_comm]
    exact rationalMean_of_le hy hle

/-- The mean of two negative values is near the larger one. -/
theorem rationalMean_of_neg {x y : Rat} (hx : x < 0) (hy : y < 0) :
    min x y ≤ rationalMean x y ∧ rationalMean x y ≤ max x y ∧
      2 * max x y ≤ rationalMean x y := by
  have hmean := rationalMean_of_pos (neg_pos.mpr hx) (neg_pos.mpr hy)
  rw [rationalMean_neg, min_neg_neg, max_neg_neg] at hmean
  refine ⟨?_, ?_, ?_⟩
  · linarith
  · linarith
  · linarith

theorem connects_of_not_neg {x y : Rat} (h : ¬(x < 0 ∧ y < 0)) :
    Connects x y (rationalMean x y) := by
  by_cases hpos : 0 < x ∧ 0 < y
  · obtain ⟨hmin, hmax, htwice⟩ := rationalMean_of_pos hpos.1 hpos.2
    refine ⟨(lt_min hpos.1 hpos.2).le.trans hmin, ?_, fun _ _ => ⟨hmin, hmax⟩, fun _ _ => htwice⟩
    intro hclosed
    cases hclosed with
    | inl hx => exact absurd hpos.1 (not_lt.mpr hx)
    | inr hy => exact absurd hpos.2 (not_lt.mpr hy)
  · have hproduct : x * y ≤ 0 := by
      by_contra hxy
      rcases pos_and_pos_or_neg_and_neg_of_mul_pos (not_le.mp hxy) with hboth | hboth
      · exact hpos hboth
      · exact h hboth
    have hzero : rationalMean x y = 0 := if_pos hproduct
    exact ⟨hzero.ge, fun _ => hzero, fun hx hy => absurd ⟨hx, hy⟩ hpos,
      fun hx hy => absurd ⟨hx, hy⟩ hpos⟩

/-- What the mean of two values makes of a connection: it keeps to its bounds unless both
values are negative, and then it is negative itself. -/
structure Averages (x y z : Rat) : Prop where
  connects_iff : Connects x y z ↔ ¬(x < 0 ∧ y < 0)
  negative : x < 0 → y < 0 → z < 0 ∧ min x y ≤ z ∧ z ≤ max x y ∧ 2 * max x y ≤ z

theorem averages_rationalMean (x y : Rat) : Averages x y (rationalMean x y) where
  connects_iff := by
    constructor
    · intro hconnects hboth
      obtain ⟨hx, hy⟩ := hboth
      have hle := (rationalMean_of_neg hx hy).2.1
      exact absurd hconnects.nonneg (not_le.mpr (hle.trans_lt (max_lt hx hy)))
    · exact connects_of_not_neg
  negative hx hy := by
    have hmean := rationalMean_of_neg hx hy
    exact ⟨hmean.2.1.trans_lt (max_lt hx hy), hmean⟩

/-- An entry of the tensor of a cell, times the multiplier of the cell in a direction. -/
def Deck.scaled? {α : Type} [Scalar α] (deck : Deck α) (d : Direction) (cell : Nat)
    (row column : Axis) : Option α := do
  let k ← deck.permeability? cell row
  let v ← deck.factor? d.multiplier cell
  return (if column = row then k else 0.0) * v

theorem Deck.scaled?_eq_some {deck : Deck Exact} {d : Direction} {cell : Nat} {row : Axis}
    {k v : Rat} (hk : deck.permeability? cell row = some (.value k))
    (hv : deck.factor? d.multiplier cell = some (.value v)) (column : Axis) :
    deck.scaled? d cell row column = some (.value ((if column = row then k else 0) * v)) := by
  rw [scaled?, hk, hv, Exact.zero_eq]
  split <;> rfl

namespace CartesianGrid
variable {g : CartesianGrid} {deck : Deck Exact} {m : FaceMultipliers Exact}
  {cells : Array (Tensor Exact)} {store : FaceStore Exact}

/-- A stored tensor joins the cell `a` and the cell `b` on its positive side along an axis.
Each entry is in the given relation to the scaled entries of the two cells. -/
structure Joins (g : CartesianGrid) (deck : Deck Exact) (store : FaceStore Exact)
    (r : Rat → Rat → Rat → Prop) (a b : Int) (axis : Axis) (stored : Rounded (Tensor Exact)) :
    Prop where
  step : g.Step a b ⟨axis, true⟩
  get : store.get a b = .ok stored
  entries : ∀ {ca cb : Nat}, g.cartesianIndex a = .ok ca → g.cartesianIndex b = .ok cb →
    ∀ row column, ∃ x y z : Rat,
      deck.scaled? ⟨axis, true⟩ ca row column = some (.value x) ∧
      deck.scaled? ⟨axis, false⟩ cb row column = some (.value y) ∧
      stored.value.entry row column = .value z ∧ r x y z

/-- Every tensor of the store is that of a step to the positive side. -/
theorem exists_step_of_mem_faceStore (hg : g.Within) {precision : Precision} {key : Int}
    {stored : Rounded (Tensor Exact)} (h : (key, stored) ∈ (g.faceStore precision m cells).toList) :
    ∃ (i j ci cj : Nat) (axis : Axis), key = faceKey i j g.numActive ∧
      g.active[i]? = some ci ∧ g.active[j]? = some cj ∧
      g.location cj = (⟨axis, true⟩ : Direction).move (g.location ci) ∧
      (g.faceStore precision m cells).find? i j = some stored := by
  have hlookup := (FaceStore.mem_toList_iff (FaceStore.keys_foldl_offer_nodup
    (s := { numActive := g.numActive }) _ List.nodup_nil)).mp h
  have hkey : key ∈ (g.faceStore precision m cells).keys := List.mem_map_of_mem h
  obtain ⟨⟨i, j⟩, ⟨-, ci, cj, hi, hj, hadj⟩, rfl⟩ := (mem_keys_faceStore hg).mp hkey
  have hfind : (g.faceStore precision m cells).find? i j = some stored := by
    rw [FaceStore.find?, ← hlookup, faceStore, FaceStore.numActive_foldl_offer]
  obtain ⟨axis, hloc | hloc⟩ := Direction.exists_axis_of_adjacent hadj
  · exact ⟨i, j, ci, cj, axis, rfl, hi, hj, hloc, hfind⟩
  · exact ⟨j, i, cj, ci, axis, faceKey_comm _ _ _, hj, hi, hloc, FaceStore.find?_comm _ _ _ ▸ hfind⟩

theorem joins_visitedTensor (hg : g.Within) (hdeck : deck.IsRational)
    (hm : FaceMultipliers.ofDeck deck g.topology = .ok m)
    (hcells : cellPermeabilities .double deck g.topology = .ok cells) {i j ci cj : Nat}
    {axis : Axis} (hi : g.active[i]? = some ci) (hj : g.active[j]? = some cj)
    (hloc : g.location cj = (⟨axis, true⟩ : Direction).move (g.location ci)) :
    g.Joins deck (g.faceStore .double m cells) Averages i j axis
      ⟨.double, visitedTensor m cells ⟨i, j, ⟨axis, true⟩⟩⟩ where
  step := ⟨ci, cj, cartesianIndex_eq_ok_iff.mpr ⟨i, rfl, hi⟩,
    cartesianIndex_eq_ok_iff.mpr ⟨j, rfl, hj⟩, hloc⟩
  get := FaceStore.get_eq_ok_iff.mpr (find?_faceStore hg hi hj hloc)
  entries := by
    intro ca cb ha hb row column
    rw [cartesianIndex_eq_ok_iff.mpr ⟨i, rfl, hi⟩, Except.ok.injEq] at ha
    rw [cartesianIndex_eq_ok_iff.mpr ⟨j, rfl, hj⟩, Except.ok.injEq] at hb
    subst ha hb
    obtain ⟨k, l, v, w, hk, hl, hv, hw, hentry⟩ :=
      entry_visitedTensor hdeck hm hcells hi hj ⟨axis, true⟩ row
    refine ⟨_, _, _, Deck.scaled?_eq_some hk hv column, Deck.scaled?_eq_some hl hw column, ?_,
      averages_rationalMean _ _⟩
    rw [hentry]
    split
    · rfl
    · simp [rationalMean]

/-- From a deck of rational numbers every stored tensor joins its cells by the means of
their scaled entries, and every step to the positive side has such a tensor. -/
theorem joins_averages (hdeck : deck.IsRational) {sizes : List Int}
    {mask : Option (List Bool)} (hg : ofMask sizes mask = .ok g)
    (hcells : cellPermeabilities .double deck g.topology = .ok cells)
    (hstore : facePermeabilities .double deck g.topology cells = .ok store) :
    (∀ key stored, (key, stored) ∈ store.toList → ∃ a b axis,
      key = faceKey a b g.numActive ∧ g.Joins deck store Averages a b axis stored) ∧
    ∀ a b axis, g.Step a b ⟨axis, true⟩ → ∃ stored, g.Joins deck store Averages a b axis stored := by
  have hwithin := ofMask_within hg
  obtain ⟨m, hm, rfl⟩ := eq_faceStore_of_facePermeabilities_eq_ok hwithin hstore
  constructor
  · intro key stored hmem
    obtain ⟨i, j, ci, cj, axis, hkey, hi, hj, hloc, hfind⟩ :=
      exists_step_of_mem_faceStore hwithin hmem
    rw [find?_faceStore hwithin hi hj hloc, Option.some.injEq] at hfind
    exact ⟨i, j, axis, hkey, hfind ▸ joins_visitedTensor hwithin hdeck hm hcells hi hj hloc⟩
  · intro a b axis hstep
    obtain ⟨ca, cb, ha, hb, hloc⟩ := hstep
    obtain ⟨i, rfl, hi⟩ := cartesianIndex_eq_ok_iff.mp ha
    obtain ⟨j, rfl, hj⟩ := cartesianIndex_eq_ok_iff.mp hb
    exact ⟨_, joins_visitedTensor hwithin hdeck hm hcells hi hj hloc⟩

/-- Two cells in a row with negative permeabilities. -/
def negativeDeck : Deck Exact where
  arrays := ⟨[("PERMX", .real #[.value (-1), .value (-3)])], List.pairwise_singleton _ _⟩
  tables := (pairDeck #[]).tables

def negativeCells : Array (Tensor Exact) :=
  #[Tensor.diagonal ⟨.value (-1), .value (-1), .value (-1)⟩,
    Tensor.diagonal ⟨.value (-3), .value (-3), .value (-3)⟩]

def negativeTensor : Tensor Exact :=
  Tensor.diagonal ⟨.value (-3 / 2), .value (-3 / 2), .value (-3 / 2)⟩

theorem exists_negativeStore : ∃ store,
    facePermeabilities .double negativeDeck pairGrid.topology negativeCells = .ok store ∧
      store.toList = [(1, ⟨.double, negativeTensor⟩)] := by
  have hlist : (facePermeabilities .double negativeDeck pairGrid.topology
      negativeCells).toOption.map FaceStore.toList = some [(1, ⟨.double, negativeTensor⟩)] := by
    decide +kernel
  obtain ⟨store, hstore, hlist⟩ := Option.map_eq_some_iff.mp hlist
  exact ⟨store, Outcome.toOption_eq_some_iff.mp hstore, hlist⟩

theorem joins_averages_negative : ∃ store,
    facePermeabilities .double negativeDeck pairGrid.topology negativeCells = .ok store ∧
      (∀ key stored, (key, stored) ∈ store.toList → ∃ a b axis,
        key = faceKey a b pairGrid.numActive ∧
          pairGrid.Joins negativeDeck store Averages a b axis stored) ∧
      ∀ a b axis, pairGrid.Step a b ⟨axis, true⟩ →
        ∃ stored, pairGrid.Joins negativeDeck store Averages a b axis stored := by
  have hg : ofMask [2, 1, 1] none = .ok pairGrid := rfl
  obtain ⟨store, hstore, -⟩ := exists_negativeStore
  exact ⟨store, hstore, joins_averages (by decide +kernel) hg (by decide +kernel) hstore⟩

/-- Negative values on both sides do not close a connection. -/
theorem not_forall_joins_connects : ¬∀ (deck : Deck Exact) (sizes : List Int)
    (mask : Option (List Bool)) (g : CartesianGrid) (cells : Array (Tensor Exact))
    (store : FaceStore Exact), deck.IsRational → ofMask sizes mask = .ok g →
      cellPermeabilities .double deck g.topology = .ok cells →
      facePermeabilities .double deck g.topology cells = .ok store →
      ∀ key stored, (key, stored) ∈ store.toList → ∃ a b axis,
        key = faceKey a b g.numActive ∧ g.Joins deck store Connects a b axis stored := by
  intro h
  have hg : ofMask [2, 1, 1] none = .ok pairGrid := rfl
  obtain ⟨store, hstore, hlist⟩ := exists_negativeStore
  obtain ⟨a, b, axis, -, hjoins⟩ := h negativeDeck [2, 1, 1] none pairGrid negativeCells store
    (by decide +kernel) hg (by decide +kernel) hstore 1 ⟨.double, negativeTensor⟩
    (hlist ▸ List.mem_singleton_self _)
  obtain ⟨ca, cb, ha, hb, -⟩ := hjoins.step
  obtain ⟨x, y, z, -, -, hentry, hconnects⟩ := hjoins.entries ha hb .x .x
  have hz : (-3 / 2 : Rat) = z := Exact.value.inj hentry
  exact absurd (hz ▸ hconnects.nonneg) (by decide +kernel)

end CartesianGrid
end BlackOil

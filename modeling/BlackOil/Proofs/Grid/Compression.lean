import BlackOil.Proofs.Grid.Gather

/-!
# Compressed numbering

A grid numbers its active cells from zero in the order of their cartesian indices. The two
ways between the numberings undo each other: every number has one active cell, every active
cell one number, and an inactive cell none. Beyond the cells either way is refused.
-/
namespace BlackOil

theorem length_activeFrom (first : Nat) (mask : List Bool) :
    (activeFrom first mask).length = mask.count true := by
  induction mask generalizing first with
  | nil => rfl
  | cons active mask ih => cases active <;> simp [activeFrom, ih]

/-- Exactly the inactive cells have no number. -/
theorem positionsFrom_eq_none_iff {number offset : Nat} {mask : List Bool} :
    (positionsFrom number mask)[offset]? = some none ↔ mask[offset]? = some false := by
  induction mask generalizing number offset with
  | nil => simp [positionsFrom]
  | cons active mask ih =>
    cases active with
    | false =>
      cases offset with
      | zero => simp [positionsFrom]
      | succ offset => exact ih
    | true =>
      cases offset with
      | zero => simp [positionsFrom]
      | succ offset => exact ih

namespace CartesianGrid
variable {g : CartesianGrid}

theorem numActive_eq (g : CartesianGrid) : g.numActive = g.mask.count true := by
  rw [numActive, g.active_eq, List.size_toArray, length_activeFrom]

/-- The number of a cartesian cell is looked up in the table of positions. -/
theorem activeIndex_natCast_eq_ok_iff {c : Nat} {position : Option Nat} :
    g.activeIndex c = .ok position ↔ g.positions[c]? = some position := by
  rw [activeIndex, getElem?_natCast]
  cases g.positions[c]? <;> simp

theorem activeIndex_eq_some_iff {c k : Nat} :
    g.activeIndex c = .ok (some k) ↔ g.cartesianIndex k = .ok c := by
  rw [activeIndex_natCast_eq_ok_iff, positions_eq_some_iff, cartesianIndex_eq_ok_iff]
  constructor
  · exact fun h => ⟨k, rfl, h⟩
  · intro h
    obtain ⟨k', hk, h⟩ := h
    exact Int.ofNat_inj.mp hk ▸ h

theorem activeIndex_eq_none_iff {c : Nat} :
    g.activeIndex c = .ok none ↔ g.mask[c]? = some false := by
  rw [activeIndex_natCast_eq_ok_iff, g.positions_eq, List.getElem?_toArray,
    positionsFrom_eq_none_iff]

theorem cartesianIndex_eq_error {a : Int} (h : ¬(0 ≤ a ∧ a < g.numActive)) :
    g.cartesianIndex a = .error (.activeIndex a g.numActive) := by
  rw [cartesianIndex, getElem?_toNat_of_not h]

theorem activeIndex_eq_error {c : Int} (h : ¬(0 ≤ c ∧ c < g.numCartesian)) :
    g.activeIndex c = .error (.cartesianIndex c g.numCartesian) := by
  rw [activeIndex, getElem?_toNat_of_not h]

/-- An active cell has a cartesian index, and the mask marks the cell there. -/
theorem exists_cartesianIndex_iff {c : Nat} :
    (∃ a, g.cartesianIndex a = .ok c) ↔ g.mask[c]? = some true := by
  rw [← mem_active_iff, Array.mem_iff_getElem?]
  simp only [cartesianIndex_eq_ok_iff]
  constructor
  · intro h
    obtain ⟨a, k, -, hk⟩ := h
    exact ⟨k, hk⟩
  · intro h
    obtain ⟨k, hk⟩ := h
    exact ⟨k, k, rfl, hk⟩

/-- The active cells of a mask have the numbers from zero in cartesian order. -/
structure Numbers (g : CartesianGrid) (mask : List Bool) : Prop where
  numActive : g.numActive = mask.count true
  /-- Every number below that of the active cells stands for a cell. -/
  exists_cartesianIndex : ∀ a : Int, 0 ≤ a → a < g.numActive → ∃ c, g.cartesianIndex a = .ok c
  increasing : ∀ {a b : Int} {ca cb : Nat}, g.cartesianIndex a = .ok ca →
    g.cartesianIndex b = .ok cb → (a < b ↔ ca < cb)
  /-- The cells that are numbered are those that the mask leaves active. -/
  range : ∀ c : Nat, (∃ a, g.cartesianIndex a = .ok c) ↔ mask[c]? = some true
  activeIndex_cartesianIndex : ∀ {a : Int} {c : Nat}, g.cartesianIndex a = .ok c →
    ∃ k : Nat, a = k ∧ g.activeIndex c = .ok (some k)
  /-- Every cell of the box is looked up. -/
  exists_activeIndex : ∀ c : Int, 0 ≤ c → c < mask.length → ∃ position, g.activeIndex c = .ok position
  activeIndex_none : ∀ c : Nat, g.activeIndex c = .ok none ↔ mask[c]? = some false
  cartesianIndex_activeIndex : ∀ {c k : Nat}, g.activeIndex c = .ok (some k) →
    g.cartesianIndex k = .ok c
  cartesianIndex_refused : ∀ a : Int, ¬(0 ≤ a ∧ a < g.numActive) →
    ∃ fault : Fault, g.cartesianIndex a = .error fault ∧ fault.kind = .indexRange
  activeIndex_refused : ∀ c : Int, ¬(0 ≤ c ∧ c < mask.length) →
    ∃ fault : Fault, g.activeIndex c = .error fault ∧ fault.kind = .indexRange

/-- A grid numbers the active cells of its mask. -/
theorem numbers_mask (g : CartesianGrid) : g.Numbers g.mask where
  numActive := g.numActive_eq
  exists_cartesianIndex := by
    intro a hnonneg hlt
    have hk : a.toNat < g.active.size := by
      rw [CartesianGrid.numActive] at hlt
      omega
    refine ⟨g.active[a.toNat], cartesianIndex_eq_ok_iff.mpr ⟨a.toNat, ?_, ?_⟩⟩
    · exact (Int.toNat_of_nonneg hnonneg).symm
    · exact Array.getElem?_eq_getElem hk
  increasing := by
    intro a b ca cb ha hb
    obtain ⟨i, rfl, hi⟩ := cartesianIndex_eq_ok_iff.mp ha
    obtain ⟨j, rfl, hj⟩ := cartesianIndex_eq_ok_iff.mp hb
    rw [Int.ofNat_lt]
    exact g.active_lt_active hi hj
  range c := exists_cartesianIndex_iff
  activeIndex_cartesianIndex := by
    intro a c h
    obtain ⟨k, rfl, -⟩ := cartesianIndex_eq_ok_iff.mp h
    exact ⟨k, rfl, activeIndex_eq_some_iff.mpr h⟩
  exists_activeIndex := by
    intro c hnonneg hlt
    obtain ⟨c, rfl⟩ := Int.eq_ofNat_of_zero_le hnonneg
    rw [← numCartesian_eq, Int.ofNat_lt] at hlt
    exact ⟨_, activeIndex_natCast_eq_ok_iff.mpr (Array.getElem?_eq_getElem hlt)⟩
  activeIndex_none c := activeIndex_eq_none_iff
  cartesianIndex_activeIndex := activeIndex_eq_some_iff.mp
  cartesianIndex_refused a h := ⟨_, cartesianIndex_eq_error h, rfl⟩
  activeIndex_refused c h := ⟨_, activeIndex_eq_error (by rwa [numCartesian_eq]), rfl⟩

/-- A box with a mask for every cell makes a grid that numbers the active ones. -/
theorem exists_numbers {d : Dimensions} (hd : Word.fits d.count) {mask : Option (List Bool)}
    (hm : ∀ m ∈ mask, m.length = d.count) :
    ∃ g, ofMask d.toList mask = .ok g ∧ g.dimensions = d ∧ g.numCartesian = d.count ∧
      g.Numbers (mask.getD (List.replicate d.count true)) := by
  obtain ⟨g, hg, hdimensions, hmask⟩ := exists_ofMask hd hm
  have hcount : g.numCartesian = g.dimensions.count :=
    g.numCartesian_eq.trans (ofMask_complete hg (hdimensions ▸ hd))
  exact ⟨g, hg, hdimensions, hdimensions ▸ hcount, hmask ▸ g.numbers_mask⟩

/-- A row of five cells. -/
def rowDimensions : Dimensions := ⟨5, 1, 1, Nat.succ_pos 4, Nat.one_pos, Nat.one_pos⟩

theorem exists_numbers_row : Word.fits rowDimensions.count ∧
    (∀ m ∈ some [true, false, true, true, false], m.length = rowDimensions.count) ∧
    ∃ g, ofMask rowDimensions.toList (some [true, false, true, true, false]) = .ok g ∧
      g.dimensions = rowDimensions ∧ g.numCartesian = rowDimensions.count ∧
      g.Numbers [true, false, true, true, false] :=
  ⟨by decide, by decide, exists_numbers (by decide) (by decide)⟩

end CartesianGrid
end BlackOil

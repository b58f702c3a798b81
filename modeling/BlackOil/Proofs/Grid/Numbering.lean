import BlackOil.Proofs.Grid.CellCount

/-!
# Active numbering

The active cells of a mask are numbered in increasing cartesian order. The table
from active to cartesian cells is strictly increasing and lists exactly the cells
that the mask leaves active; the table from cartesian to active cells is its
inverse. A grid is complete if its mask covers its box, which is so for every grid
whose cell count is a word.
-/
namespace BlackOil

theorem length_positionsFrom (number : Nat) (mask : List Bool) :
    (positionsFrom number mask).length = mask.length := by
  induction mask generalizing number with
  | nil => rfl
  | cons active mask ih => cases active <;> simp [positionsFrom, ih]

theorem mem_activeFrom {first cell : Nat} {mask : List Bool} :
    cell ∈ activeFrom first mask ↔ first ≤ cell ∧ mask[cell - first]? = some true := by
  induction mask generalizing first with
  | nil => simp [activeFrom]
  | cons active mask ih =>
    have hrest : cell ∈ activeFrom (first + 1) mask ↔
        first < cell ∧ (active :: mask)[cell - first]? = some true := by
      rw [ih]
      refine and_congr_right fun hlt => ?_
      rw [show cell - first = cell - (first + 1) + 1 by omega, List.getElem?_cons_succ]
    cases active with
    | false =>
      rw [activeFrom, hrest]
      constructor
      · exact fun h => ⟨Nat.le_of_lt h.1, h.2⟩
      · rintro ⟨hle, h⟩
        refine ⟨Nat.lt_of_le_of_ne hle ?_, h⟩
        rintro rfl
        simp at h
    | true =>
      rw [activeFrom, List.mem_cons, hrest]
      constructor
      · rintro (rfl | h)
        · simp
        · exact ⟨Nat.le_of_lt h.1, h.2⟩
      · rintro ⟨hle, h⟩
        exact (Nat.eq_or_lt_of_le hle).imp Eq.symm fun hlt => ⟨hlt, h⟩

theorem activeFrom_pairwise (first : Nat) (mask : List Bool) :
    (activeFrom first mask).Pairwise (· < ·) := by
  induction mask generalizing first with
  | nil => exact List.Pairwise.nil
  | cons active mask ih =>
    cases active with
    | false => exact ih (first + 1)
    | true => exact List.pairwise_cons.mpr ⟨fun cell h => (mem_activeFrom.mp h).1, ih (first + 1)⟩

theorem activeFrom_replicate (first count : Nat) :
    activeFrom first (List.replicate count true) = List.range' first count := by
  induction count generalizing first with
  | zero => rfl
  | succ count ih => rw [List.replicate_succ, activeFrom, ih, List.range'_succ]

/-- The two tables are inverse to each other. -/
theorem positionsFrom_eq_some_iff (first : Nat) {number offset k : Nat} {mask : List Bool} :
    (positionsFrom number mask)[offset]? = some (some k) ↔
      number ≤ k ∧ (activeFrom first mask)[k - number]? = some (first + offset) := by
  induction mask generalizing number first offset with
  | nil => simp [positionsFrom, activeFrom]
  | cons active mask ih =>
    -- No later cell is the first one.
    have hfirst : ∀ i : Nat, (activeFrom (first + 1) mask)[i]? ≠ some first := by
      intro i hi
      have := (mem_activeFrom.mp (List.mem_of_getElem? hi)).1
      omega
    cases active with
    | false =>
      rw [positionsFrom, activeFrom]
      cases offset with
      | zero => simp [hfirst]
      | succ offset =>
        rw [List.getElem?_cons_succ, ih (first + 1), Nat.add_assoc, Nat.add_comm 1]
    | true =>
      rw [positionsFrom, activeFrom]
      cases offset with
      | zero =>
        rw [List.getElem?_cons_zero, Option.some.injEq, Option.some.injEq, Nat.add_zero]
        constructor
        · rintro rfl
          simp
        · rintro ⟨hle, h⟩
          cases hk : k - number with
          | zero => omega
          | succ i =>
            rw [hk, List.getElem?_cons_succ] at h
            exact absurd h (hfirst i)
      | succ offset =>
        rw [List.getElem?_cons_succ, ih (first + 1)]
        constructor
        · rintro ⟨hle, h⟩
          refine ⟨by omega, ?_⟩
          rw [show k - number = k - (number + 1) + 1 by omega, List.getElem?_cons_succ, h]
          congr 1
          omega
        · rintro ⟨hle, h⟩
          cases hk : k - number with
          | zero =>
            rw [hk, List.getElem?_cons_zero, Option.some.injEq] at h
            omega
          | succ i =>
            rw [hk, List.getElem?_cons_succ] at h
            refine ⟨by omega, ?_⟩
            rw [show k - (number + 1) = i by omega, h]
            congr 1
            omega

namespace CartesianGrid
variable (g : CartesianGrid)

theorem active_getElem? (k : Nat) : g.active[k]? = (activeFrom 0 g.mask)[k]? := by
  rw [g.active_eq, List.getElem?_toArray]

/-- An active cell has the number under which it is listed. -/
theorem positions_eq_some_iff {cell k : Nat} :
    g.positions[cell]? = some (some k) ↔ g.active[k]? = some cell := by
  rw [g.positions_eq, List.getElem?_toArray, active_getElem?,
    positionsFrom_eq_some_iff 0]
  simp

theorem numCartesian_eq : g.numCartesian = g.mask.length := by
  rw [numCartesian, g.positions_eq, List.size_toArray, length_positionsFrom]

theorem mem_active_iff {cell : Nat} : cell ∈ g.active ↔ g.mask[cell]? = some true := by
  rw [g.active_eq, List.mem_toArray, mem_activeFrom]
  simp

theorem lt_of_mem_active {cell : Nat} (h : cell ∈ g.active) : cell < g.numCartesian := by
  rw [numCartesian_eq]
  exact (List.getElem?_eq_some_iff.mp (g.mem_active_iff.mp h)).choose

/-- Active cells are numbered in cartesian order. -/
theorem active_lt_active {i j ci cj : Nat} (hi : g.active[i]? = some ci)
    (hj : g.active[j]? = some cj) : i < j ↔ ci < cj := by
  have hsorted : ∀ {i j ci cj : Nat}, g.active[i]? = some ci → g.active[j]? = some cj →
      i < j → ci < cj := by
    intro i j ci cj hi hj hlt
    rw [active_getElem?] at hi hj
    obtain ⟨hi', rfl⟩ := List.getElem?_eq_some_iff.mp hi
    obtain ⟨hj', rfl⟩ := List.getElem?_eq_some_iff.mp hj
    exact List.pairwise_iff_getElem.mp (activeFrom_pairwise 0 g.mask) i j hi' hj' hlt
  refine ⟨hsorted hi hj, fun hlt => ?_⟩
  rcases Nat.lt_trichotomy i j with h | rfl | h
  · exact h
  · rw [hi, Option.some.injEq] at hj
    omega
  · have := hsorted hj hi h
    omega

variable {g} in
/-- The cartesian index of an active cell is listed under its number. -/
theorem cartesianIndex_eq_ok_iff {a : Int} {c : Nat} :
    g.cartesianIndex a = .ok c ↔ ∃ k : Nat, a = k ∧ g.active[k]? = some c := by
  unfold cartesianIndex
  constructor
  · intro h
    split at h
    · rename_i cell hcell
      cases h
      split at hcell
      · cases hcell
      · exact ⟨a.toNat, by omega, hcell⟩
    · cases h
  · rintro ⟨k, rfl, hk⟩
    simp [Int.not_lt.mpr (Int.natCast_nonneg k), hk]

/-- The mask covers the box. -/
def Complete : Prop := g.mask.length = g.dimensions.count

/-- The mask does not go beyond the box. -/
def Within : Prop := g.mask.length ≤ g.dimensions.count

variable {g} in
theorem Complete.within (h : g.Complete) : g.Within := Nat.le_of_eq h

/-- A grid has the given sizes and the given mask, which has as many entries as cells are
counted. -/
theorem of_ofMask_eq_ok {sizes : List Int} {mask : Option (List Bool)} {g : CartesianGrid}
    (h : ofMask sizes mask = .ok g) : g.dimensions.toList = sizes ∧
      Word.fits g.dimensions.cellCount ∧ (g.mask.length : Int) = g.dimensions.cellCount ∧
      g.mask = mask.getD (List.replicate g.mask.length true) := by
  unfold ofMask at h
  cases hd : Dimensions.ofList? sizes with
  | none =>
    rw [hd] at h
    cases h
  | some d =>
    have hsizes := Dimensions.toList_of_ofList? hd
    cases mask with
    | none =>
      simp only [hd] at h
      by_cases hnegative : d.cellCount < 0
      · rw [if_pos hnegative] at h
        cases h
      by_cases hfits : Word.fits d.cellCount
      · rw [if_neg hnegative, if_pos hfits, Except.ok.injEq] at h
        subst h
        refine ⟨hsizes, hfits, ?_, ?_⟩
        · rw [List.length_replicate, Int.toNat_of_nonneg (Int.not_lt.mp hnegative)]
        · rw [List.length_replicate, Option.getD_none]
      · rw [if_neg hnegative, if_neg hfits] at h
        cases h
    | some mask =>
      simp only [hd] at h
      by_cases hm : mask.length = d.cellCount ∧ Word.fits d.cellCount
      · rw [if_pos hm, Except.ok.injEq] at h
        subst h
        exact ⟨hsizes, hm.2, hm.1, rfl⟩
      · rw [if_neg hm] at h
        cases h

theorem ofMask_complete {sizes : List Int} {mask : Option (List Bool)} {g : CartesianGrid}
    (h : ofMask sizes mask = .ok g) (hw : Word.fits g.dimensions.count) : g.Complete := by
  obtain ⟨-, -, hlength, -⟩ := of_ofMask_eq_ok h
  rw [Dimensions.cellCount_of_fits hw] at hlength
  exact Int.ofNat_inj.mp hlength

/-- Where the number of cells is too large for a word, the mask covers a part of the box. -/
theorem ofMask_within {sizes : List Int} {mask : Option (List Bool)} {g : CartesianGrid}
    (h : ofMask sizes mask = .ok g) : g.Within := by
  obtain ⟨-, hfits, hlength, -⟩ := of_ofMask_eq_ok h
  have hle : g.dimensions.cellCount ≤ g.dimensions.count := by
    rw [Dimensions.cellCount_eq_wrap hfits]
    exact Word.wrap_le (Int.natCast_nonneg _)
  exact Int.ofNat_le.mp (hlength ▸ hle)

/-- A grid keeps the mask that it is given. -/
theorem mask_of_ofMask {sizes : List Int} {mask : List Bool} {g : CartesianGrid}
    (h : ofMask sizes (some mask) = .ok g) : g.mask = mask :=
  (of_ofMask_eq_ok h).2.2.2

/-- A mask for every cell of a box is accepted. -/
theorem exists_ofMask {d : Dimensions} (hd : Word.fits d.count) {mask : Option (List Bool)}
    (hm : ∀ m ∈ mask, m.length = d.count) :
    ∃ g, ofMask d.toList mask = .ok g ∧ g.dimensions = d ∧
      g.mask = mask.getD (List.replicate d.count true) := by
  have hcount : d.cellCount = d.count := Dimensions.cellCount_of_fits hd
  simp only [ofMask, Dimensions.ofList?_toList, hcount]
  cases mask with
  | none =>
    rw [if_neg (Int.not_lt.mpr (Int.natCast_nonneg _)), if_pos hd]
    exact ⟨_, rfl, rfl, rfl⟩
  | some m =>
    have hlength : (m.length : Int) = d.count := congrArg Int.ofNat (hm m rfl)
    exact ⟨{ dimensions := d, mask := m }, if_pos ⟨hlength, hd⟩, rfl, rfl⟩

end CartesianGrid
end BlackOil

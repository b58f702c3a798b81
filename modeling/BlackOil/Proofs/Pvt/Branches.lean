import BlackOil.Proofs.Pvt.Table

/-!
# Borrowed branches

A record without a branch borrows that of the nearest record that has one of its own. The
branches are scanned in the order of the records, and one that is as near as the best so far
replaces it, so that of two equally near ones the later is left in the end. A borrowed branch
is not lent on. This says of every record what its branch is, and where no record lacks one
nothing is changed.
-/
namespace BlackOil
namespace LiveOil
variable {α : Type}

/-- The distance between two positions. -/
def distance (k i : Nat) : Nat := ((k : Int) - i).natAbs

section Scan
variable {i : Nat} {known : List (Nat × Curve α)} {best entry : Nat × Curve α}

/-- The better one of the best entry so far and the next entry. -/
def better (i : Nat) (best : Option (Nat × Curve α)) (entry : Nat × Curve α) :
    Option (Nat × Curve α) :=
  match best with
  | none => some entry
  | some best => if distance entry.1 i ≤ distance best.1 i then some entry else some best

theorem nearestBranch_eq (known : List (Nat × Curve α)) (i : Nat) :
    nearestBranch known i = (known.foldl (better i) none).map Prod.snd := by
  have hdistance : ∀ k : Nat, max k i - min k i = distance k i := by
    intro k
    unfold distance
    omega
  simp only [nearestBranch, hdistance]
  congr 2
  funext best entry
  cases best <;> rfl

/-- No entry is nearer than the best one, and no later entry is as near. -/
structure IsBest (i : Nat) (known : List (Nat × Curve α)) (best : Nat × Curve α) : Prop where
  mem : best ∈ known
  least : ∀ entry ∈ known, distance best.1 i ≤ distance entry.1 i
  latest : ∀ entry ∈ known, distance entry.1 i = distance best.1 i → entry.1 ≤ best.1

/-- One step of a scan over increasing positions. -/
theorem IsBest.step (h : IsBest i known best) (hlast : ∀ e ∈ known, e.1 < entry.1) :
    ∃ best', better i (some best) entry = some best' ∧ IsBest i (known ++ [entry]) best' := by
  by_cases hle : distance entry.1 i ≤ distance best.1 i
  · refine ⟨entry, if_pos hle, List.mem_append_right _ (List.mem_singleton_self entry), ?_, ?_⟩
    · intro e he
      rcases List.mem_append.mp he with he | he
      · exact hle.trans (h.least e he)
      · rw [List.mem_singleton.mp he]
    · intro e he _
      rcases List.mem_append.mp he with he | he
      · exact (hlast e he).le
      · rw [List.mem_singleton.mp he]
  · refine ⟨best, if_neg hle, List.mem_append_left _ h.mem, ?_, ?_⟩
    · intro e he
      rcases List.mem_append.mp he with he | he
      · exact h.least e he
      · rw [List.mem_singleton.mp he]
        exact (not_le.mp hle).le
    · intro e he heq
      rcases List.mem_append.mp he with he | he
      · exact h.latest e he heq
      · rw [List.mem_singleton.mp he] at heq
        exact absurd heq.le hle

theorem exists_isBest (hknown : known.Pairwise fun a b => a.1 < b.1) (hne : known ≠ []) :
    ∃ best, known.foldl (better i) none = some best ∧ IsBest i known best := by
  induction known using List.reverseRecOn with
  | nil => exact absurd rfl hne
  | append_singleton known entry ih =>
    obtain ⟨hknown, -, hlast⟩ := List.pairwise_append.mp hknown
    have hlast : ∀ e ∈ known, e.1 < entry.1 := fun e he =>
      hlast e he entry (List.mem_singleton_self entry)
    rw [List.foldl_append, List.foldl_cons, List.foldl_nil]
    by_cases hempty : known = []
    · subst hempty
      exact ⟨entry, rfl, by constructor <;> simp⟩
    · obtain ⟨best, hbest, hisBest⟩ := ih hknown hempty
      rw [hbest]
      exact hisBest.step hlast

end Scan

variable {branches : List (Option (Curve α))} {i k j : Nat} {c d : Curve α}

/-- The branches that are there, with their positions. -/
def ownBranches (branches : List (Option (Curve α))) : List (Nat × Curve α) :=
  branches.zipIdx.filterMap fun (branch, k) => branch.map (k, ·)

theorem mem_ownBranches : (k, c) ∈ ownBranches branches ↔ branches[k]? = some (some c) := by
  simp only [ownBranches, List.mem_filterMap, Option.map_eq_some_iff]
  constructor
  · intro h
    obtain ⟨⟨branch, j⟩, hmem, c', rfl, hpair⟩ := h
    cases hpair
    exact List.mk_mem_zipIdx_iff_getElem?.mp hmem
  · intro h
    exact ⟨(some c, k), List.mk_mem_zipIdx_iff_getElem?.mpr h, c, rfl, rfl⟩

theorem ownBranches_pairwise (branches : List (Option (Curve α))) :
    (ownBranches branches).Pairwise fun a b => a.1 < b.1 := by
  have hpositions : branches.zipIdx.Pairwise fun a b => a.2 < b.2 := by
    rw [← List.pairwise_map (f := Prod.snd), List.zipIdx_map_snd]
    exact List.pairwise_lt_range'
  refine hpositions.filterMap _ fun a b hlt entry hentry entry' hentry' => ?_
  obtain ⟨c, -, rfl⟩ := Option.map_eq_some_iff.mp hentry
  obtain ⟨c', -, rfl⟩ := Option.map_eq_some_iff.mp hentry'
  exact hlt

/-- The branch at position `k` is the one to borrow at position `i`: no other record with a
branch is nearer, and no later one is as near. -/
structure Lends (branches : List (Option (Curve α))) (i k : Nat) (c : Curve α) : Prop where
  own : branches[k]? = some (some c)
  least : ∀ (j : Nat) (d : Curve α), branches[j]? = some (some d) → distance k i ≤ distance j i
  latest : ∀ (j : Nat) (d : Curve α), branches[j]? = some (some d) →
    distance j i = distance k i → j ≤ k

theorem Lends.unique (h : Lends branches i k c) (h' : Lends branches i j d) : c = d := by
  have hdistance : distance k i = distance j i :=
    le_antisymm (h.least j d h'.own) (h'.least k c h.own)
  have hposition : k = j :=
    le_antisymm (h'.latest k c h.own hdistance) (h.latest j d h'.own hdistance.symm)
  have hown := h.own
  rw [hposition, h'.own] at hown
  cases hown
  rfl

/-- What the entries of a list are filled with: an entry keeps the branch that it has and
borrows the one that it lacks, and all branches are flat where there is none. -/
structure Fills [Scalar α] (branches : List (Option (Curve α))) (filled : List (Curve α)) :
    Prop where
  length_eq : filled.length = branches.length
  own : ∀ (i : Nat) (c : Curve α), branches[i]? = some (some c) → filled[i]? = some c
  borrowed : ∀ i : Nat, branches[i]? = some none → (∃ c, some c ∈ branches) →
    ∃ k c, Lends branches i k c ∧ filled[i]? = some c
  flat : (∀ branch ∈ branches, branch = none) → ∀ c ∈ filled, c = ⟨⟨0.0, 1.0⟩, []⟩

variable [Scalar α]

theorem exists_lends (h : ∃ c, some c ∈ branches) (i : Nat) :
    ∃ k, Lends branches i k (borrowed branches i) := by
  obtain ⟨c, hc⟩ := h
  obtain ⟨k, hk⟩ := List.getElem?_of_mem hc
  have hne : ownBranches branches ≠ [] := List.ne_nil_of_mem (mem_ownBranches.mpr hk)
  obtain ⟨⟨k, c⟩, hfold, hbest⟩ := exists_isBest (i := i) (ownBranches_pairwise branches) hne
  have hborrowed : borrowed branches i = c := by
    change (nearestBranch (ownBranches branches) i).getD flatBranch = c
    rw [nearestBranch_eq, hfold]
    rfl
  rw [hborrowed]
  exact ⟨k, mem_ownBranches.mp hbest.mem,
    fun j d hd => hbest.least (j, d) (mem_ownBranches.mpr hd),
    fun j d hd => hbest.latest (j, d) (mem_ownBranches.mpr hd)⟩

/-- Without any branch the flat one is borrowed. -/
theorem borrowed_eq_flatBranch (h : ∀ branch ∈ branches, branch = none) (i : Nat) :
    borrowed branches i = flatBranch := by
  refine (borrowed_eq branches i).resolve_right fun hmem => ?_
  cases h _ hmem

theorem getElem?_fillBranches (branches : List (Option (Curve α))) (i : Nat) :
    (fillBranches branches)[i]? = branches[i]?.map fun b => b.getD (borrowed branches i) := by
  rw [fillBranches_eq, List.getElem?_map, List.getElem?_zipIdx, Option.map_map, Nat.zero_add]
  rfl

theorem fills_fillBranches (branches : List (Option (Curve α))) :
    Fills branches (fillBranches branches) := by
  constructor
  case length_eq => rw [fillBranches_eq, List.length_map, List.length_zipIdx]
  case own =>
    intro i c hc
    rw [getElem?_fillBranches, hc]
    rfl
  case borrowed =>
    intro i hi hexists
    obtain ⟨k, hk⟩ := exists_lends hexists i
    refine ⟨k, _, hk, ?_⟩
    rw [getElem?_fillBranches, hi]
    rfl
  case flat =>
    intro hnone c hc
    obtain ⟨i, hi⟩ := List.getElem?_of_mem hc
    rw [getElem?_fillBranches, Option.map_eq_some_iff] at hi
    obtain ⟨branch, hbranch, rfl⟩ := hi
    rw [hnone branch (List.mem_of_getElem? hbranch)]
    exact borrowed_eq_flatBranch hnone i

namespace Fills
variable {filled filled' : List (Curve α)}

/-- A list is filled in one way only. -/
theorem unique (h : Fills branches filled) (h' : Fills branches filled') : filled = filled' := by
  refine List.ext_getElem? fun i => ?_
  cases hi : branches[i]? with
  | none =>
    have hlength := List.getElem?_eq_none_iff.mp hi
    rw [List.getElem?_eq_none (h.length_eq.trans_le hlength),
      List.getElem?_eq_none (h'.length_eq.trans_le hlength)]
  | some branch =>
    cases branch with
    | some c => rw [h.own i c hi, h'.own i c hi]
    | none =>
      by_cases hexists : ∃ c, some c ∈ branches
      · obtain ⟨k, c, hlends, hc⟩ := h.borrowed i hi hexists
        obtain ⟨k', c', hlends', hc'⟩ := h'.borrowed i hi hexists
        rw [hc, hc', hlends.unique hlends']
      · have hnone : ∀ branch ∈ branches, branch = none := fun branch hbranch =>
          Option.eq_none_iff_forall_ne_some.mpr fun c hc => hexists ⟨c, hc ▸ hbranch⟩
        have hlt := (List.getElem?_eq_some_iff.mp hi).1
        rw [List.getElem?_eq_getElem (h.length_eq ▸ hlt),
          List.getElem?_eq_getElem (h'.length_eq ▸ hlt),
          h.flat hnone _ (List.getElem_mem _), h'.flat hnone _ (List.getElem_mem _)]

/-- Where every branch is there, nothing is to be filled. -/
theorem map_some (curves : List (Curve α)) : Fills (curves.map some) curves where
  length_eq := (List.length_map some).symm
  own i c h := by
    rw [List.getElem?_map, Option.map_eq_some_iff] at h
    obtain ⟨c', hc', hsome⟩ := h
    exact hc'.trans hsome
  borrowed i h := by
    rw [List.getElem?_map, Option.map_eq_some_iff] at h
    obtain ⟨c', -, hnone⟩ := h
    cases hnone
  flat h c hc := by cases h (some c) (List.mem_map_of_mem hc)

end Fills

/-- Every record has its own branch or that of the nearest record with one, of two the later,
or the flat one if there is none. There is only one way to do this, and filling what is filled
changes nothing. -/
theorem fillBranches_spec (branches : List (Option (Curve α))) :
    Fills branches (fillBranches branches) ∧
      (∀ filled, Fills branches filled → filled = fillBranches branches) ∧
      fillBranches ((fillBranches branches).map some) = fillBranches branches := by
  have hfills := fills_fillBranches branches
  refine ⟨hfills, fun filled h => h.unique hfills, ?_⟩
  exact (fills_fillBranches _).unique (.map_some _)

example (a b : Curve Exact) : fillBranches [none, some a, none, some b, none] = [a, a, b, b, b] :=
  rfl

end LiveOil
end BlackOil

import BlackOil.Proofs.Grid.Numbering
import BlackOil.Proofs.Outcome

/-!
# Gathered values

What the stages of a model compute for the active cells are values of one function in
their cartesian cells. `Reads f cells out` says so of an array. Gathering the values of a
deck array succeeds exactly if every cell has one, and arrays read cell by cell can be
mapped and joined.
-/
namespace BlackOil
variable {β γ : Type}

/-- The array `out` holds the values of `f` in the given cells. -/
def Reads (f : Nat → Option β) (cells : Array Nat) (out : Array β) : Prop :=
  out.map some = cells.map f

namespace Reads
variable {f : Nat → Option β} {g : Nat → Option γ} {cells : Array Nat} {out : Array β}

theorem size_eq (h : Reads f cells out) : out.size = cells.size := by
  simpa using congrArg Array.size h

theorem getElem? (h : Reads f cells out) (i : Nat) : out[i]? = cells[i]?.bind f := by
  have hi := congrArg (·[i]?) h
  simp only [Array.getElem?_map] at hi
  cases hc : cells[i]? with
  | none => simpa [hc] using hi
  | some c => cases ho : out[i]? <;> simp_all

theorem eq_some (h : Reads f cells out) {i c : Nat} (hc : cells[i]? = some c) :
    out[i]? = f c := by
  rw [h.getElem?, hc, Option.bind_some]

/-- Every value comes from a cell. -/
theorem exists_of_mem (h : Reads f cells out) {b : β} (hb : b ∈ out) :
    ∃ c ∈ cells, f c = some b := by
  have hm : some b ∈ out.map some := Array.mem_map_of_mem hb
  rw [h, Array.mem_map] at hm
  exact hm

theorem isSome_of_mem (h : Reads f cells out) {c : Nat} (hc : c ∈ cells) : (f c).isSome := by
  have hm : f c ∈ cells.map f := Array.mem_map_of_mem hc
  rw [← h, Array.mem_map] at hm
  obtain ⟨b, -, hb⟩ := hm
  rw [← hb]
  rfl

/-- The entry of a cell is the value of the cell. -/
theorem exists_entry (h : Reads f cells out) {i c : Nat} (hc : cells[i]? = some c) :
    ∃ b, f c = some b ∧ out[i]? = some b := by
  obtain ⟨b, hb⟩ := Option.isSome_iff_exists.mp (h.isSome_of_mem (Array.mem_of_getElem? hc))
  exact ⟨b, hb, (h.eq_some hc).trans hb⟩

theorem unique {out' : Array β} (h : Reads f cells out) (h' : Reads f cells out') :
    out = out' := by
  apply Array.ext_getElem?
  intro i
  rw [h.getElem?, h'.getElem?]

protected theorem congr {f' : Nat → Option β} (h : Reads f cells out)
    (hf : ∀ c ∈ cells, f c = f' c) : Reads f' cells out := by
  rw [Reads, h]
  exact Array.map_congr_left hf

protected theorem map (k : β → γ) (h : Reads f cells out) :
    Reads (fun c => (f c).map k) cells (out.map k) := by
  have hk := congrArg (Array.map (Option.map k)) h
  simpa [Reads, Function.comp_def] using hk

protected theorem zip {out' : Array γ} (h : Reads f cells out) (h' : Reads g cells out') :
    Reads (fun c => (f c).bind fun b => (g c).map (b, ·)) cells (out.zip out') := by
  apply Array.ext_getElem?
  intro i
  rw [Array.getElem?_map, Array.getElem?_map, Array.zip_eq_zipWith, Array.getElem?_zipWith,
    h.getElem?, h'.getElem?]
  cases hc : cells[i]? with
  | none => rfl
  | some c =>
    have hm := Array.mem_of_getElem? hc
    obtain ⟨b, hb⟩ := Option.isSome_iff_exists.mp (h.isSome_of_mem hm)
    obtain ⟨b', hb'⟩ := Option.isSome_iff_exists.mp (h'.isSome_of_mem hm)
    simp [hb, hb']

end Reads

/-- There are values to read exactly if every cell has one. -/
theorem exists_reads_iff {f : Nat → Option β} {cells : Array Nat} :
    (∃ out, Reads f cells out) ↔ ∀ c ∈ cells, (f c).isSome := by
  constructor
  · rintro ⟨out, h⟩ c hc
    exact h.isSome_of_mem hc
  · intro h
    refine ⟨cells.attach.map fun c => (f c.1).get (h c.1 c.2), ?_⟩
    simp [Reads, Function.comp_def]

/-- Where the values of `f` can be read, so can those of a function that has a value
wherever `f` has one. -/
theorem Reads.exists_of_isSome {f : Nat → Option β} {cells : Array Nat} {out : Array β}
    (h : Reads f cells out) {g : Nat → Option γ} (hg : ∀ c, (f c).isSome → (g c).isSome) :
    ∃ out', Reads g cells out' :=
  exists_reads_iff.mpr fun c hc => hg c (h.isSome_of_mem hc)

theorem reads_map_iff {f : Nat → Option β} {k : β → γ} {cells : Array Nat} {out : Array γ} :
    Reads (fun c => (f c).map k) cells out ↔ ∃ xs, Reads f cells xs ∧ out = xs.map k := by
  constructor
  · intro h
    obtain ⟨xs, hx⟩ := h.exists_of_isSome (g := f) fun c hc => by simpa using hc
    exact ⟨xs, hx, h.unique (hx.map k)⟩
  · intro h
    obtain ⟨xs, hx, rfl⟩ := h
    exact hx.map k

theorem reads_zip_iff {f : Nat → Option β} {g : Nat → Option γ} {cells : Array Nat}
    {out : Array (β × γ)} :
    Reads (fun c => (f c).bind fun b => (g c).map (b, ·)) cells out ↔
      ∃ xs ys, Reads f cells xs ∧ Reads g cells ys ∧ out = xs.zip ys := by
  constructor
  · intro h
    have hparts : ∀ c, ((f c).bind fun b => (g c).map (b, ·)).isSome →
        (f c).isSome ∧ (g c).isSome := by
      intro c hc
      cases hf : f c <;> cases hg : g c <;> simp_all
    obtain ⟨xs, hx⟩ := h.exists_of_isSome fun c hc => (hparts c hc).1
    obtain ⟨ys, hy⟩ := h.exists_of_isSome fun c hc => (hparts c hc).2
    exact ⟨xs, ys, hx, hy, h.unique (hx.zip hy)⟩
  · intro h
    obtain ⟨xs, ys, hx, hy, rfl⟩ := h
    exact hx.zip hy

theorem reads_filter_iff {f : Nat → Option β} {p : β → Bool} {cells : Array Nat}
    {out : Array β} : Reads (fun c => (f c).filter p) cells out ↔
      Reads f cells out ∧ ∀ b ∈ out, p b := by
  constructor
  · intro h
    have hf : ∀ c ∈ cells, (f c).filter p = f c := by
      intro c hc
      obtain ⟨b, hb⟩ := Option.isSome_iff_exists.mp (h.isSome_of_mem hc)
      rw [hb, (Option.filter_eq_some_iff.mp hb).1]
    refine ⟨h.congr hf, fun b hb => ?_⟩
    obtain ⟨c, -, hc⟩ := h.exists_of_mem hb
    exact (Option.filter_eq_some_iff.mp hc).2
  · intro h
    obtain ⟨h, hp⟩ := h
    refine h.congr fun c hc => ?_
    obtain ⟨i, hi⟩ := Array.getElem?_of_mem hc
    obtain ⟨b, hb⟩ := Option.isSome_iff_exists.mp (h.isSome_of_mem hc)
    have hmem := Array.mem_of_getElem? ((h.eq_some hi).trans hb)
    rw [hb, Option.filter_some, if_pos (hp b hmem)]

/-- The entry at an index of the array is found from the front, and no other from there. -/
theorem entryAt_natCast_eq_ok_iff {values : Array β} {c : Nat} {b : β} :
    entryAt values c = .ok b ↔ values[c]? = some b := by
  have hc : ¬(c : Int) < 0 := Int.not_lt.mpr (Int.natCast_nonneg c)
  simp only [entryAt, if_neg hc, Int.toNat_natCast]
  cases values[c]? <;> simp

/-- A bound is reached by the greatest of the cells exactly if it is by one of them. -/
theorem le_foldl_max_iff {size least : Nat} {cells : List Nat} :
    size ≤ cells.foldl max least ↔ size ≤ least ∨ ∃ c ∈ cells, size ≤ c := by
  induction cells generalizing least with
  | nil => simp
  | cons c cells ih =>
    simp only [List.foldl_cons, ih, List.mem_cons, exists_eq_or_imp, ← or_assoc]
    exact or_congr_left (by omega)

/-- The check of the greatest cell is one of every cell. -/
theorem exists_beyond_iff {size : Nat} {cells : Array Nat} :
    (0 < cells.size ∧ size ≤ cells.foldl max 0) ↔ ∃ c ∈ cells, size ≤ c := by
  rw [← Array.foldl_toList, le_foldl_max_iff, Nat.le_zero_eq]
  simp only [Array.mem_toList_iff]
  constructor
  · rintro ⟨hpos, rfl | h⟩
    · exact ⟨cells[0], Array.getElem_mem hpos, Nat.zero_le _⟩
    · exact h
  · intro h
    obtain ⟨c, hc, -⟩ := id h
    exact ⟨Array.size_pos_of_mem hc, .inr h⟩

/-- Without a cell beyond the values, every cell has its value. -/
theorem mapM_entryAt_eq_ok_iff {values : Array β} {cells : Array Nat} {out : Array β} :
    cells.mapM (fun c : Nat => entryAt values c) = .ok out ↔ Reads (values[·]?) cells out := by
  have hentry : ∀ {l : List Nat} {r : List β},
      l.map (fun c => entryAt values (c : Nat)) = r.map .ok ↔
        r.map some = l.map (values[·]?) := by
    intro l r
    induction l generalizing r with
    | nil => cases r <;> simp
    | cons c l ih =>
      cases r with
      | nil => simp
      | cons b r => simp [ih, entryAt_natCast_eq_ok_iff, eq_comm (a := some b)]
  rw [Array.mapM_eq_mapM_toList, Outcome.map_eq_ok_iff]
  simp only [Outcome.mapM_eq_ok_iff, hentry]
  constructor
  · rintro ⟨r, hr, rfl⟩
    apply Array.toList_inj.mp
    simpa using hr
  · intro h
    exact ⟨out.toList, by simpa using congrArg Array.toList h, rfl⟩

/-- Gathering succeeds exactly with the values of the cells. -/
theorem gather_eq_ok_iff {keyword : String} {values : Array β} {cells : Array Nat}
    {out : Array β} : gather keyword values cells = .ok out ↔ Reads (values[·]?) cells out := by
  unfold gather
  simp only [exists_beyond_iff]
  split
  · rename_i h
    obtain ⟨c, hc, hv⟩ := h
    simp only [reduceCtorEq, false_iff]
    intro hreads
    have := hreads.isSome_of_mem hc
    simp [Nat.not_lt.mpr hv] at this
  · exact mapM_entryAt_eq_ok_iff

/-- Gathering fails only for a cell beyond the values. -/
theorem gather_eq_error_iff {keyword : String} {values : Array β} {cells : Array Nat}
    {fault : Fault} : gather keyword values cells = .error fault ↔
      (∃ c ∈ cells, values.size ≤ c) ∧
        fault = .beyondValues (cells.foldl max 0) values.size keyword := by
  unfold gather
  simp only [exists_beyond_iff]
  split
  · rename_i h
    rw [Except.error.injEq, eq_comm]
    exact (and_iff_right h).symm
  · rename_i h
    have hsome : ∀ c ∈ cells, values[c]?.isSome := by
      intro c hc
      simpa using Nat.not_le.mp fun hv => h ⟨c, hc, hv⟩
    obtain ⟨out, ho⟩ := exists_reads_iff.mpr hsome
    rw [mapM_entryAt_eq_ok_iff.mpr ho]
    exact ⟨nofun, fun hfault => absurd hfault.1 h⟩

/-- An index that is a natural number is looked up as it is. -/
theorem getElem?_natCast (values : Array β) (a : Nat) :
    (if (a : Int) < 0 then none else values[(a : Int).toNat]?) = values[a]? := by
  rw [if_neg (Int.not_lt.mpr (Int.natCast_nonneg a)), Int.toNat_natCast]

/-- An index that is none of an array is not found, not even counted from the end. -/
theorem getElem?_toNat_of_not {values : Array β} {index : Int}
    (h : ¬(0 ≤ index ∧ index < values.size)) :
    (if index < 0 then none else values[index.toNat]?) = none := by
  split
  · rfl
  · apply Array.getElem?_eq_none
    omega

/-- A topology has the cells of its active cells exactly if all of these lie in its grid. -/
theorem Topology.cells_eq_ok_iff {t : Topology} {cells : Array Nat} :
    t.cells = .ok cells ↔ (∀ c ∈ t.cartesian, 0 ≤ c ∧ c < t.numCartesian) ∧
      cells = t.cartesian.map Int.toNat := by
  have hinside : t.cartesian.findIdx? (fun c => c < 0 || t.numCartesian ≤ c) = none ↔
      ∀ c ∈ t.cartesian, 0 ≤ c ∧ c < t.numCartesian := by
    simp only [Array.findIdx?_eq_none_iff, Bool.or_eq_false_iff, decide_eq_false_iff_not,
      Int.not_lt, Int.not_le]
  rw [← hinside]
  unfold Topology.cells
  split
  · rename_i h
    simp [h]
  · rename_i h
    simp only [h, Except.ok.injEq, true_and]
    exact eq_comm

/-- A topology whose active cells lie in its grid has their cells. -/
theorem Topology.cells_eq_ok {t : Topology}
    (h : ∀ c ∈ t.cartesian, 0 ≤ c ∧ c < t.numCartesian) :
    t.cells = .ok (t.cartesian.map Int.toNat) :=
  cells_eq_ok_iff.mpr ⟨h, rfl⟩

/-- Every active cell of a topology has its cartesian cell. -/
theorem Topology.size_of_cells_eq_ok {t : Topology} {active : Array Nat}
    (h : t.cells = .ok active) : active.size = t.numActive := by
  rw [(cells_eq_ok_iff.mp h).2]
  exact Array.size_map

/-- The cells of a topology are the cartesian indices of its active cells. -/
theorem Topology.cartesianIndex_of_cells_eq_ok {t : Topology} {cells : Array Nat}
    (h : t.cells = .ok cells) {a c : Nat} (hc : cells[a]? = some c) :
    t.cartesianIndex a = .ok (c : Int) := by
  obtain ⟨hinside, rfl⟩ := cells_eq_ok_iff.mp h
  rw [Array.getElem?_map, Option.map_eq_some_iff] at hc
  obtain ⟨i, hi, rfl⟩ := hc
  have hpos := (hinside i (Array.mem_of_getElem? hi)).1
  rw [cartesianIndex, getElem?_natCast, hi, Int.toNat_of_nonneg hpos]

/-- The cells of a grid are its active ones. -/
theorem CartesianGrid.topology_cells (g : CartesianGrid) : g.topology.cells = .ok g.active := by
  unfold Topology.cells
  split
  · rename_i active h
    obtain ⟨hlt, hp, -⟩ := Array.findIdx?_eq_some_iff_getElem.mp h
    simp only [topology, Array.size_map, Array.getElem_map] at hlt hp
    have := g.lt_of_mem_active (Array.getElem_mem hlt)
    simp at hp
    omega
  · simp [topology, Function.comp_def]

end BlackOil

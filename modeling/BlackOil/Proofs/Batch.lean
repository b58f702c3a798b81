import BlackOil.Batch
import Mathlib.Algebra.Group.Nat.Defs
import Mathlib.Data.List.Forall2

/-!
# Batches entry by entry

A batch has an entry at every index of its shape. Two batches that are combined have at every
index of their common shape the combination of one entry of each: those at the index without
the axes that a batch does not have, and with zero on its axes of length one.
-/
namespace BlackOil.Batch
variable {β γ δ ε : Type}

theorem stretchTo_ofList (values : List β) :
    (ofList values).stretchTo [values.length] = values := by
  have hstretch : (ofList values).stretchTo [values.length] =
      (List.range values.length).flatMap fun i => (values.drop i).take 1 := by
    have hshape : (ofList values).stretchTo [values.length] =
        stretch [values.length] [values.length] values := rfl
    rw [hshape, stretch, if_pos rfl]
    simp only [List.foldl_nil, Nat.mul_one]
    rfl
  rw [hstretch]
  clear hstretch
  induction values with
  | nil => rfl
  | cons b values ih =>
    rw [List.length_cons, List.range_succ_eq_map, List.flatMap_cons, List.flatMap_map]
    exact congrArg (b :: ·) ih

/-- Lists of one length are combined entry by entry. -/
theorem combine_ofList (f : β → γ → δ) {xs : List β} {ys : List γ} (h : xs.length = ys.length) :
    combine f (ofList xs) (ofList ys) = .ok (ofList (List.zipWith f xs ys)) := by
  have hcommon : common? (ofList xs).shape (ofList ys).shape = some [ys.length] := by
    simp [common?, commonReversed, ofList, h]
  have hxs : (ofList xs).stretchTo [ys.length] = xs := h ▸ stretchTo_ofList xs
  have hlength : (List.zipWith f xs ys).length = ys.length := by simp [h]
  simp only [combine, hcommon, hxs, stretchTo_ofList]
  rw [ofList, hlength]

/-- Two batches may be paired first and combined then. -/
theorem combine_eq_map (f : β → γ → δ) (x : Batch β) (y : Batch γ) :
    combine f x y = map (fun p => f p.1 p.2) <$> combine Prod.mk x y := by
  unfold combine
  cases common? x.shape y.shape with
  | none => rfl
  | some shape =>
    have hpairs : List.zipWith f (x.stretchTo shape) (y.stretchTo shape) =
        (List.zipWith Prod.mk (x.stretchTo shape) (y.stretchTo shape)).map fun p => f p.1 p.2 := by
      rw [List.map_zipWith]
    exact congrArg (fun values => Except.ok (Batch.mk shape values)) hpairs

theorem map_scatter (f : β → γ) (mask : List Bool) (values new : List β) :
    (scatter mask values new).map f = scatter mask (values.map f) (new.map f) := by
  induction mask generalizing values new with
  | nil => cases values <;> rfl
  | cons mark mask ih =>
    cases values with
    | nil => cases mark <;> rfl
    | cons b values =>
      cases mark with
      | false => exact congrArg (f b :: ·) (ih values new)
      | true =>
        cases new with
        | nil => exact congrArg (f b :: ·) (ih values [])
        | cons c new => exact congrArg (f c :: ·) (ih values new)

theorem map_eq_map_iff {f g : β → γ} {x : Batch β} :
    x.map f = x.map g ↔ ∀ b ∈ x.values, f b = g b := by
  simp [map, List.map_inj_left]

theorem mem_of_mem_stretch {s t : List Nat} {values : List β} {b : β}
    (h : b ∈ stretch s t values) : b ∈ values := by
  fun_induction stretch s t values with
  | case1 s b t values size ih =>
    obtain ⟨i, -, hi⟩ := List.mem_flatMap.mp h
    exact List.mem_of_mem_drop (List.mem_of_mem_take (ih i hi))
  | case2 a s b t values hne ih =>
    obtain ⟨block, hblock, hb⟩ := List.mem_flatten.mp h
    exact ih (List.eq_of_mem_replicate hblock ▸ hb)
  | case3 => exact h

theorem mem_of_combine_eq_ok {x : Batch β} {y : Batch γ} {pairs : Batch (β × γ)}
    (h : combine Prod.mk x y = .ok pairs) {p : β × γ} (hp : p ∈ pairs.values) :
    p.1 ∈ x.values ∧ p.2 ∈ y.values := by
  unfold combine at h
  split at h
  · cases h
    have hp : p ∈ List.zip _ _ := hp
    exact ⟨mem_of_mem_stretch (List.of_mem_zip hp).1, mem_of_mem_stretch (List.of_mem_zip hp).2⟩
  · cases h

theorem kind_of_combine_eq_error {x : Batch β} {y : Batch γ} {fault : Fault}
    (h : combine Prod.mk x y = .error fault) : fault.kind = .value := by
  unfold combine at h
  split at h
  · cases h
  · cases h
    rfl

section Indices
variable {s t shape : List Nat} {values : List β} {index : List Nat}

/-- A batch with as many values as its shape has entries. -/
def Full (x : Batch β) : Prop := x.values.length = x.shape.prod

/-- The place of an index in row-major order. An index of a shape is one of as many axes that
stays below each of the lengths. -/
def position : List Nat → List Nat → Option Nat
  | [], [] => some 0
  | n :: shape, i :: index => if i < n then (i * shape.prod + ·) <$> position shape index else none
  | _, _ => none

/-- The entry of a batch at an index. -/
def at? (x : Batch β) (index : List Nat) : Option β :=
  (position x.shape index).bind (x.values[·]?)

/-- The index at which a batch of a shape is read for an index of a common shape. -/
def sourceIndex (shape index : List Nat) : List Nat :=
  List.zipWith (fun n i => if n = 1 then 0 else i) shape (index.drop (index.length - shape.length))

theorem position_lt {k : Nat} (h : position shape index = some k) : k < shape.prod := by
  induction shape generalizing index k with
  | nil =>
    cases index with
    | nil =>
      cases h
      exact Nat.one_pos
    | cons => cases h
  | cons n shape ih =>
    cases index with
    | nil => cases h
    | cons i index =>
      simp only [position, Option.ite_none_right_eq_some, Option.map_eq_map,
        Option.map_eq_some_iff] at h
      obtain ⟨hi, k', hk, rfl⟩ := h
      calc i * shape.prod + k' < (i + 1) * shape.prod := by
            rw [Nat.succ_mul]
            exact Nat.add_lt_add_left (ih hk) _
        _ ≤ (n :: shape).prod := by
            rw [List.prod_cons]
            exact Nat.mul_le_mul_right _ hi

theorem length_of_position {k : Nat} (h : position shape index = some k) :
    index.length = shape.length := by
  induction shape generalizing index k with
  | nil =>
    cases index with
    | nil => rfl
    | cons => cases h
  | cons n shape ih =>
    cases index with
    | nil => cases h
    | cons i index =>
      simp only [position, Option.ite_none_right_eq_some, Option.map_eq_map,
        Option.map_eq_some_iff] at h
      obtain ⟨-, k', hk, -⟩ := h
      simp [ih hk]

theorem length_flatten_of_length {blocks : List (List β)} {size : Nat}
    (h : ∀ block ∈ blocks, block.length = size) : blocks.flatten.length = blocks.length * size := by
  induction blocks with
  | nil => simp
  | cons block blocks ih =>
    rw [List.flatten_cons, List.length_append, h block List.mem_cons_self,
      ih fun block hb => h block (List.mem_cons_of_mem _ hb), List.length_cons, Nat.succ_mul,
      Nat.add_comm]

/-- The entries of blocks of one length are found block by block. -/
theorem getElem?_flatten_of_length {blocks : List (List β)} {size : Nat}
    (h : ∀ block ∈ blocks, block.length = size) (i : Nat) {j : Nat} (hj : j < size) :
    blocks.flatten[i * size + j]? = blocks[i]?.bind (·[j]?) := by
  induction blocks generalizing i with
  | nil => simp
  | cons block blocks ih =>
    have hblock := h block List.mem_cons_self
    rw [List.flatten_cons]
    cases i with
    | zero => simp [List.getElem?_append_left (hblock ▸ hj : j < block.length)]
    | succ i =>
      have hle : block.length ≤ (i + 1) * size + j := by
        rw [hblock, Nat.succ_mul]
        omega
      have hsub : (i + 1) * size + j - block.length = i * size + j := by
        rw [hblock, Nat.succ_mul]
        omega
      rw [List.getElem?_append_right hle, hsub, List.getElem?_cons_succ]
      exact ih (fun block hb => h block (List.mem_cons_of_mem _ hb)) i

/-- A shape that stretches to another with as many axes. -/
abbrev Stretches : List Nat → List Nat → Prop := List.Forall₂ fun a b => a = b ∨ a = 1

theorem length_take_drop {i a size : Nat} (hi : i < a) (hv : values.length = a * size) :
    ((values.drop (i * size)).take size).length = size := by
  have hle : i * size + size ≤ a * size := by
    rw [← Nat.succ_mul]
    exact Nat.mul_le_mul_right _ hi
  rw [List.length_take, List.length_drop]
  omega

/-- The blocks that a stretched batch is made of have one length. -/
theorem length_of_mem_blocks {a : Nat} (hv : values.length = a * s.prod)
    (ih : ∀ values : List β, values.length = s.prod → (stretch s t values).length = t.prod) :
    ∀ block ∈ (List.range a).map fun i =>
      stretch s t ((values.drop (i * s.prod)).take s.prod), block.length = t.prod := by
  intro block hblock
  obtain ⟨i, hi, rfl⟩ := List.mem_map.mp hblock
  exact ih _ (length_take_drop (List.mem_range.mp hi) hv)

theorem stretch_cons (a b : Nat) (s t : List Nat) (values : List β) :
    stretch (a :: s) (b :: t) values =
      if a = b then ((List.range a).map fun i =>
        stretch s t ((values.drop (i * s.prod)).take s.prod)).flatten
      else (List.replicate b (stretch s t values)).flatten := by
  rw [stretch, List.prod_eq_foldl, List.flatMap_def]

theorem length_stretch (hst : Stretches s t) (hv : values.length = s.prod) :
    (stretch s t values).length = t.prod := by
  induction hst generalizing values with
  | nil => exact hv
  | cons hab hst ih =>
    rename_i a b s t
    rw [List.prod_cons] at hv ⊢
    rw [stretch_cons]
    split
    · rename_i h
      subst h
      rw [length_flatten_of_length (length_of_mem_blocks hv fun _ hvalues => ih hvalues),
        List.length_map, List.length_range]
    · rename_i h
      obtain rfl := hab.resolve_left h
      have hblock := ih (hv.trans (Nat.one_mul _))
      rw [length_flatten_of_length fun block hb => (List.eq_of_mem_replicate hb ▸ hblock),
        List.length_replicate]

/-- A stretched batch has at every index the entry of the batch at the index with zero on the
axes of length one. -/
theorem getElem?_stretch (hst : Stretches s t) (hv : values.length = s.prod) {k : Nat}
    (hk : position t index = some k) : ∃ j,
      position s (List.zipWith (fun n i => if n = 1 then 0 else i) s index) = some j ∧
        (stretch s t values)[k]? = values[j]? := by
  induction hst generalizing values index k with
  | nil => 
    cases index with
    | nil => exact ⟨k, hk, rfl⟩
    | cons => cases hk
  | cons hab hst ih =>
    rename_i a b s t
    cases index with
    | nil => cases hk
    | cons i index =>
      simp only [position, Option.ite_none_right_eq_some, Option.map_eq_map,
        Option.map_eq_some_iff] at hk
      obtain ⟨hi, k', hk, rfl⟩ := hk
      rw [List.prod_cons] at hv
      rw [stretch_cons]
      split
      · rename_i h
        subst h
        have hblocks := length_of_mem_blocks hv fun _ hvalues => length_stretch hst hvalues
        obtain ⟨j, hj, hentry⟩ := ih (length_take_drop hi hv) hk
        -- On an axis of length one the only index is zero, so the index stays what it was.
        have hzero : (if a = 1 then 0 else i) = i := by
          split <;> omega
        refine ⟨i * s.prod + j, ?_, ?_⟩
        · simp [position, hzero, hi, hj]
        · rw [getElem?_flatten_of_length hblocks i (position_lt hk), List.getElem?_map,
            List.getElem?_range hi, Option.map_some, Option.bind_some, hentry,
            List.getElem?_take_of_lt (position_lt hj), List.getElem?_drop]
      · rename_i h
        obtain rfl := hab.resolve_left h
        rw [Nat.one_mul] at hv
        obtain ⟨j, hj, hentry⟩ := ih hv hk
        refine ⟨j, ?_, ?_⟩
        · simp [position, hj]
        · have hblocks : ∀ block ∈ List.replicate b (stretch s t values),
              block.length = t.prod := by
            intro block hblock
            rw [List.eq_of_mem_replicate hblock]
            exact length_stretch hst hv
          rw [getElem?_flatten_of_length hblocks i (position_lt hk),
            List.getElem?_replicate_of_lt hi, Option.bind_some, hentry]

theorem prod_replicate_one_append (n : Nat) : (List.replicate n 1 ++ shape).prod = shape.prod := by
  induction n with
  | zero => rfl
  | succ n ih => rw [List.replicate_succ, List.cons_append, List.prod_cons, Nat.one_mul, ih]

/-- Axes of length one in front do not move a place. -/
theorem position_replicate_one {n : Nat} (h : n ≤ index.length) :
    position (List.replicate n 1 ++ shape)
        (List.zipWith (fun n i => if n = 1 then 0 else i) (List.replicate n 1 ++ shape) index) =
      position shape (List.zipWith (fun n i => if n = 1 then 0 else i) shape (index.drop n)) := by
  induction n generalizing index with
  | zero => rfl
  | succ n ih =>
    cases index with
    | nil => cases h
    | cons i index =>
      rw [List.length_cons, Nat.succ_le_succ_iff] at h
      rw [List.replicate_succ, List.cons_append, List.zipWith_cons_cons, if_pos rfl,
        List.drop_succ_cons, ← ih h]
      simp [position]

/-- The common shape of two shapes is one that both stretch to, once they have as many axes. -/
theorem stretches_of_commonReversed (h : commonReversed s t = some shape) :
    Stretches (s ++ List.replicate (shape.length - s.length) 1) shape ∧
      Stretches (t ++ List.replicate (shape.length - t.length) 1) shape := by
  have hones : ∀ shape : List Nat, Stretches (List.replicate shape.length 1) shape := by
    intro shape
    induction shape with
    | nil => exact .nil
    | cons n shape ih => exact .cons (.inr rfl) ih
  have hself : ∀ shape : List Nat, Stretches (shape ++ List.replicate 0 1) shape := by
    intro shape
    rw [List.replicate_zero, List.append_nil]
    exact List.forall₂_same.mpr fun n _ => .inl rfl
  fun_induction commonReversed s t generalizing shape with
  | case1 t =>
    cases h
    rw [Nat.sub_self]
    exact ⟨hones _, hself _⟩
  | case2 s =>
    cases h
    rw [Nat.sub_self]
    exact ⟨hself _, hones _⟩
  | case3 a s b t hab ih =>
    obtain ⟨shape, hshape, rfl⟩ := Option.map_eq_some_iff.mp h
    simp only [List.length_cons, Nat.succ_sub_succ, List.cons_append]
    exact ⟨.cons (.inl rfl) (ih hshape).1, .cons (hab.imp_left Eq.symm) (ih hshape).2⟩
  | case4 s b t hab ih =>
    obtain ⟨shape, hshape, rfl⟩ := Option.map_eq_some_iff.mp h
    simp only [List.length_cons, Nat.succ_sub_succ, List.cons_append]
    exact ⟨.cons (.inr rfl) (ih hshape).1, .cons (.inl rfl) (ih hshape).2⟩
  | case5 => cases h

theorem stretches_of_common? (h : common? s t = some shape) :
    Stretches (List.replicate (shape.length - s.length) 1 ++ s) shape ∧
      Stretches (List.replicate (shape.length - t.length) 1 ++ t) shape := by
  obtain ⟨reversed, hreversed, rfl⟩ := Option.map_eq_some_iff.mp h
  obtain ⟨hs, ht⟩ := stretches_of_commonReversed hreversed
  have hs' := List.forall₂_reverse_iff.mpr hs
  have ht' := List.forall₂_reverse_iff.mpr ht
  simp only [List.reverse_append, List.reverse_replicate, List.reverse_reverse,
    List.length_reverse] at hs' ht' ⊢
  exact ⟨hs', ht'⟩

/-- The entries of a batch that has been stretched to a shape. -/
theorem getElem?_stretchTo {x : Batch β} (hx : x.Full)
    (hst : Stretches (List.replicate (shape.length - x.shape.length) 1 ++ x.shape) shape)
    {k : Nat} (hk : position shape index = some k) :
    ∃ b, x.at? (sourceIndex x.shape index) = some b ∧ (x.stretchTo shape)[k]? = some b := by
  have hvalues : x.values.length =
      (List.replicate (shape.length - x.shape.length) 1 ++ x.shape).prod := by
    rw [hx, prod_replicate_one_append]
  obtain ⟨j, hj, hentry⟩ := getElem?_stretch hst hvalues hk
  have hlength := length_of_position hk
  rw [position_replicate_one (by omega), ← hlength] at hj
  have hlt : j < x.values.length := hx ▸ position_lt hj
  exact ⟨x.values[j], by rw [at?, sourceIndex, hj, Option.bind_some, List.getElem?_eq_getElem hlt],
    by rw [stretchTo, hentry, List.getElem?_eq_getElem hlt]⟩

end Indices

/-- Batches whose shapes go together are combined entry by entry. -/
theorem exists_combine {x : Batch β} {y : Batch γ} (f : β → γ → δ) {shape : List Nat}
    (hx : x.Full) (hy : y.Full) (hshape : common? x.shape y.shape = some shape) :
    ∃ z, combine f x y = .ok z ∧ z.shape = shape ∧ z.Full ∧
      ∀ index, (position shape index).isSome → ∃ b c,
        x.at? (sourceIndex x.shape index) = some b ∧ y.at? (sourceIndex y.shape index) = some c ∧
        z.at? index = some (f b c) := by
  obtain ⟨hsx, hsy⟩ := stretches_of_common? hshape
  have hlength : ∀ {ε : Type} {x : Batch ε}, x.Full →
      Stretches (List.replicate (shape.length - x.shape.length) 1 ++ x.shape) shape →
      (x.stretchTo shape).length = shape.prod := fun hx hst =>
    length_stretch hst (hx.trans (prod_replicate_one_append _).symm)
  refine ⟨_, by rw [combine, hshape], rfl, ?_, fun index hindex => ?_⟩
  · rw [Full, List.length_zipWith, hlength hx hsx, hlength hy hsy, Nat.min_self]
  · obtain ⟨k, hk⟩ := Option.isSome_iff_exists.mp hindex
    obtain ⟨b, hb, hxk⟩ := getElem?_stretchTo hx hsx hk
    obtain ⟨c, hc, hyk⟩ := getElem?_stretchTo hy hsy hk
    refine ⟨b, c, hb, hc, ?_⟩
    rw [at?, hk, Option.bind_some, List.getElem?_zipWith, hxk, hyk]

end BlackOil.Batch

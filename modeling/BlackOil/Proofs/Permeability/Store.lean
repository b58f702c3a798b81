import BlackOil.Permeability.Face
import Mathlib.Tactic.Linarith

/-!
# The store of face tensors

A store of face tensors is a map under keys in which the first tensor of a key stays.
Adding a sequence of tensors leaves under each key the first one of the sequence, unless
the key had one before. The key of a pair of cells `0 ≤ a, b < n` determines the pair up
to its order.
-/
namespace BlackOil

theorem faceKey_ediv (first second : Int) {n : Int} (hn : n ≠ 0) :
    faceKey first second n / n = min first second + max first second / n := by
  rw [faceKey, Int.add_comm, Int.add_mul_ediv_right _ _ hn, Int.add_comm]

theorem faceKey_emod (first second n : Int) :
    faceKey first second n % n = max first second % n := by
  rw [faceKey, Int.add_comm, Int.add_mul_emod_self_right]

/-- The smaller cell of a pair is the quotient of its key and the larger one the
remainder. -/
theorem faceKey_ediv_emod {a b n : Int} (ha : 0 ≤ a ∧ a < n) (hb : 0 ≤ b ∧ b < n) :
    faceKey a b n / n = min a b ∧ faceKey a b n % n = max a b := by
  have hn : n ≠ 0 := by omega
  have hmax : 0 ≤ max a b ∧ max a b < n := by omega
  rw [faceKey_ediv a b hn, faceKey_emod, Int.ediv_eq_zero_of_lt hmax.1 hmax.2,
    Int.emod_eq_of_lt hmax.1 hmax.2, Int.add_zero]
  exact ⟨rfl, rfl⟩

/-- Any two indices have the key of one ordered pair at most. What the larger index is beyond
the cells is carried over to the smaller one. -/
theorem faceKey_eq_iff_carry {a b n : Int} (ha : 0 ≤ a ∧ a ≤ b) (hb : b < n)
    (first second : Int) : faceKey a b n = faceKey first second n ↔
      a = min first second + max first second / n ∧ b = max first second % n := by
  have hn : n ≠ 0 := by omega
  constructor
  · intro h
    have hab := faceKey_ediv_emod (a := a) (b := b) (n := n) (by omega) (by omega)
    rw [h, faceKey_ediv first second hn, faceKey_emod] at hab
    omega
  · intro h
    have hcarry := Int.mul_ediv_add_emod (max first second) n
    rw [faceKey, faceKey, Int.min_eq_left ha.2, Int.max_eq_right ha.2, h.1, h.2, Int.add_mul]
    linarith

/-- A key of two cells of `n` determines the unordered pair. -/
theorem faceKey_eq_iff {a b c d n : Int} (ha : 0 ≤ a ∧ a < n) (hb : 0 ≤ b ∧ b < n)
    (hc : 0 ≤ c ∧ c < n) (hd : 0 ≤ d ∧ d < n) :
    faceKey a b n = faceKey c d n ↔ a = c ∧ b = d ∨ a = d ∧ b = c := by
  constructor
  · intro h
    have h₁ := faceKey_ediv_emod ha hb
    have h₂ := faceKey_ediv_emod hc hd
    rw [h] at h₁
    omega
  · rintro (⟨rfl, rfl⟩ | ⟨rfl, rfl⟩)
    · rfl
    · exact faceKey_comm a b n

/-- In a list in which an element stands before all others with its key, its value is
the first under the key. -/
theorem lookup_map_of_first {β γ : Type} (entry : β → Int × γ) {r : β → β → Prop}
    {l : List β} (hl : l.Pairwise r) {x : β} (hx : x ∈ l)
    (hfirst : ∀ y ∈ l, (entry y).1 = (entry x).1 → y = x ∨ ¬r y x) :
    (l.map entry).lookup (entry x).1 = some (entry x).2 := by
  induction l with
  | nil => cases hx
  | cons y l ih =>
    rw [List.pairwise_cons] at hl
    rw [List.map_cons, List.lookup_cons]
    rcases List.mem_cons.mp hx with rfl | hm
    · simp
    · have hrest := ih hl.2 hm fun z hz => hfirst z (List.mem_cons_of_mem y hz)
      by_cases hk : (entry y).1 = (entry x).1
      · rcases hfirst y List.mem_cons_self hk with rfl | hr
        · simp
        · exact absurd (hl.1 x hm) hr
      · rw [beq_false_of_ne (Ne.symm hk)]
        exact hrest

theorem lookup_map_eq_none {β γ : Type} {entry : β → Int × γ} {l : List β} {key : Int}
    (h : ∀ y ∈ l, (entry y).1 ≠ key) : (l.map entry).lookup key = none := by
  rw [List.lookup_eq_none_iff]
  intro p hp
  obtain ⟨y, hy, rfl⟩ := List.mem_map.mp hp
  simpa using (h y hy).symm

namespace FaceStore
variable {α : Type}

/-- Stores a tensor under a key unless the key has one. -/
def offer (s : FaceStore α) (entry : Int × Rounded (Tensor α)) : FaceStore α :=
  match s.entries.lookup entry.1 with
  | some _ => s
  | none => { s with entries := entry :: s.entries }

/-- Adding a face offers its tensor under the key of its cells. -/
theorem add_fst [Scalar α] (s : FaceStore α) (precision : Precision) (f : Face)
    (inside outside : Tensor α) (insideFactor outsideFactor : α) :
    (s.add precision f inside outside insideFactor outsideFactor).1 =
      s.offer (faceKey f.inside f.outside s.numActive,
        ⟨precision,
          (faceTensor inside outside insideFactor outsideFactor).map precision.cast⟩) := by
  simp only [add, offer]
  cases s.entries.lookup (faceKey f.inside f.outside s.numActive) <;> rfl

@[simp] theorem numActive_offer (s : FaceStore α) (entry : Int × Rounded (Tensor α)) :
    (s.offer entry).numActive = s.numActive := by
  unfold offer
  split <;> rfl

theorem lookup_offer (s : FaceStore α) (entry : Int × Rounded (Tensor α)) (key : Int) :
    (s.offer entry).entries.lookup key = (s.entries.lookup key).or ([entry].lookup key) := by
  obtain ⟨k, tensor⟩ := entry
  unfold offer
  by_cases hk : key = k
  · subst hk
    split
    · rename_i h
      simp [h]
    · rename_i h
      simp [h]
  · have hb := beq_false_of_ne hk
    split <;> simp [List.lookup_cons, hb]

@[simp] theorem numActive_foldl_offer (entries : List (Int × Rounded (Tensor α)))
    (s : FaceStore α) : (entries.foldl offer s).numActive = s.numActive := by
  induction entries generalizing s with
  | nil => rfl
  | cons entry entries ih => rw [List.foldl_cons, ih, numActive_offer]

/-- After a sequence of tensors a key has the tensor it had, or else the first one that
was offered. -/
theorem lookup_foldl_offer (entries : List (Int × Rounded (Tensor α))) (s : FaceStore α)
    (key : Int) : (entries.foldl offer s).entries.lookup key =
      (s.entries.lookup key).or (entries.lookup key) := by
  induction entries generalizing s with
  | nil => simp
  | cons entry entries ih =>
    rw [List.foldl_cons, ih, lookup_offer, Option.or_assoc, ← List.lookup_append,
      List.singleton_append]

/-- A stored tensor was there before or has been offered. -/
theorem mem_entries_foldl_offer {entries : List (Int × Rounded (Tensor α))} {s : FaceStore α}
    {entry : Int × Rounded (Tensor α)} (h : entry ∈ (entries.foldl offer s).entries) :
    entry ∈ s.entries ∨ entry ∈ entries := by
  induction entries generalizing s with
  | nil => exact .inl h
  | cons offered entries ih =>
    rcases ih h with h | h
    · unfold offer at h
      split at h
      · exact .inl h
      · rcases List.mem_cons.mp h with rfl | h
        · exact .inr List.mem_cons_self
        · exact .inl h
    · exact .inr (List.mem_cons_of_mem offered h)

theorem keys_offer_nodup {s : FaceStore α} (h : (s.entries.map Prod.fst).Nodup)
    (entry : Int × Rounded (Tensor α)) : ((s.offer entry).entries.map Prod.fst).Nodup := by
  unfold offer
  split
  · exact h
  · rename_i hn
    rw [List.map_cons, List.nodup_cons]
    refine ⟨fun hm => ?_, h⟩
    obtain ⟨e, he, hk⟩ := List.mem_map.mp hm
    have := List.lookup_eq_none_iff.mp hn e he
    simp [hk] at this

/-- No key is stored twice. -/
theorem keys_foldl_offer_nodup (entries : List (Int × Rounded (Tensor α))) {s : FaceStore α}
    (h : (s.entries.map Prod.fst).Nodup) :
    ((entries.foldl offer s).entries.map Prod.fst).Nodup := by
  induction entries generalizing s with
  | nil => exact h
  | cons entry entries ih => exact ih (keys_offer_nodup h entry)

theorem find?_comm (s : FaceStore α) (first second : Int) :
    s.find? first second = s.find? second first := by
  rw [find?, find?, faceKey_comm]

theorem get_eq_ok_iff {s : FaceStore α} {first second : Int} {tensor : Rounded (Tensor α)} :
    s.get first second = .ok tensor ↔ s.find? first second = some tensor := by
  unfold get
  cases s.find? first second <;> simp

theorem mem_keys_iff (s : FaceStore α) (key : Int) :
    key ∈ s.keys ↔ (s.entries.lookup key).isSome := by
  rw [keys, toList, List.map_reverse, List.mem_reverse, List.lookup_isSome_iff, List.mem_map]
  simp only [beq_iff_eq, eq_comm (a := key)]

end FaceStore
end BlackOil

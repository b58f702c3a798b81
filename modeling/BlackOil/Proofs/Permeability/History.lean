import BlackOil.Proofs.Grid.Visits
import BlackOil.Proofs.Permeability.Store
import BlackOil.Scalar.Exact
import Mathlib.Data.Finset.Card

/-!
# Histories of a face store

A store of face tensors serves a sequence of requests. Its answers depend on the faces that
were added before, and of these only on the first one of each unordered pair of cells. The
store itself knows keys, not pairs; the keys of cells `0 ≤ a, b < n` determine the pairs,
and this makes it a map on pairs.
-/
namespace BlackOil.FaceStore
variable {α : Type}

/-- A face to be added, with the tensors and the multipliers of its two cells and the
precision of the result. -/
structure Addition (α : Type) where
  precision : Precision
  face : Face
  inside : Tensor α
  outside : Tensor α
  insideFactor : α
  outsideFactor : α

/-- What a store can be asked. -/
inductive Request (α : Type) where
  | add (a : Addition α)
  | get (first second : Int)
  | contains (first second : Int)
  | size
  | keys
  | entries

inductive Answer (α : Type) where
  | added (new : Bool)
  | tensor (outcome : Except Fault (Rounded (Tensor α)))
  | contained (found : Bool)
  | size (count : Nat)
  | keys (keys : List Int)
  | entries (entries : List (Int × Rounded (Tensor α)))
  deriving DecidableEq

/-- Serves one request. -/
def serve [Scalar α] (s : FaceStore α) : Request α → FaceStore α × Answer α
  | .add a =>
    let (after, new) :=
      s.add a.precision a.face a.inside a.outside a.insideFactor a.outsideFactor
    (after, .added new)
  | .get first second => (s, .tensor (s.get first second))
  | .contains first second => (s, .contained (s.contains first second))
  | .size => (s, .size s.size)
  | .keys => (s, .keys s.keys)
  | .entries => (s, .entries s.toList)

/-- Serves requests one after the other. -/
def run [Scalar α] (s : FaceStore α) : List (Request α) → FaceStore α × List (Answer α)
  | [] => (s, [])
  | r :: rest =>
    let (after, answer) := s.serve r
    let (last, answers) := after.run rest
    (last, answer :: answers)

namespace Addition

def pair (a : Addition α) : Sym2 Int := a.face.pair

/-- The key that stands for the pair among `n` cells. -/
def key (n : Int) (a : Addition α) : Int :=
  min a.face.inside a.face.outside * n + max a.face.inside a.face.outside

/-- What is stored in a row and a column: `2xy / (x + y)` for the two entries, each times its
multiplier, or zero if their product is not positive. -/
def entry [Scalar α] (a : Addition α) (row column : Axis) : α :=
  let x := a.inside.entry row column * a.insideFactor
  let y := a.outside.entry row column * a.outsideFactor
  a.precision.cast (if x * y ≤ 0.0 then 0.0 else 2.0 * x * y / (x + y))

/-- The tensor that is stored for the face. -/
def tensor [Scalar α] (a : Addition α) : Rounded (Tensor α) where
  precision := a.precision
  value :=
    ⟨⟨a.entry .x .x, a.entry .x .y, a.entry .x .z⟩,
      ⟨a.entry .y .x, a.entry .y .y, a.entry .y .z⟩,
      ⟨a.entry .z .x, a.entry .z .y, a.entry .z .z⟩⟩

/-- The first addition of a pair. -/
def first? (history : List (Addition α)) (pair : Sym2 Int) : Option (Addition α) :=
  history.find? (·.pair = pair)

/-- The additions that were the first of their pair, in their order. -/
def firsts (history : List (Addition α)) : List (Addition α) :=
  history.eraseDupsBy fun a b => a.pair == b.pair

end Addition

namespace Request

/-- The cells of a request are cells of `n`. -/
def Within (n : Int) : Request α → Prop
  | add a => (0 ≤ a.face.inside ∧ a.face.inside < n) ∧ 0 ≤ a.face.outside ∧ a.face.outside < n
  | get first second | contains first second =>
    (0 ≤ first ∧ first < n) ∧ 0 ≤ second ∧ second < n
  | size | keys | entries => True

instance (n : Int) : (r : Request α) → Decidable (r.Within n)
  | add _ | get _ _ | contains _ _ => inferInstanceAs (Decidable ((_ ∧ _) ∧ _ ∧ _))
  | size | keys | entries => inferInstanceAs (Decidable True)

/-- What a request adds to the history of a store. -/
def additions : Request α → List (Addition α)
  | add a => [a]
  | _ => []

theorem within_of_mem_additions {n : Int} {r : Request α} {a : Addition α} (h : r.Within n)
    (ha : a ∈ r.additions) : (0 ≤ a.face.inside ∧ a.face.inside < n) ∧
      0 ≤ a.face.outside ∧ a.face.outside < n := by
  cases r with
  | add b =>
    rw [additions, List.mem_singleton] at ha
    exact ha ▸ h
  | _ => cases ha

/-- The answer that a history of additions to a store of `n` cells calls for. -/
def answerAfter [Scalar α] (n : Int) (history : List (Addition α)) : Request α → Answer α
  | add a => .added (a.pair ∉ history.map Addition.pair)
  | get i j => .tensor <|
    match Addition.first? history s(i, j) with
    | some a => .ok a.tensor
    | none => .error (.noFace i j)
  | contains i j => .contained (s(i, j) ∈ history.map Addition.pair)
  | size => .size (history.map Addition.pair).toFinset.card
  | keys => .keys ((Addition.firsts history).map (Addition.key n))
  | entries => .entries ((Addition.firsts history).map fun a => (a.key n, a.tensor))

/-- The answers that requests after a history call for. -/
def answersAfter [Scalar α] (n : Int) (history : List (Addition α)) :
    List (Request α) → List (Answer α)
  | [] => []
  | r :: rest => r.answerAfter n history :: answersAfter n (history ++ r.additions) rest

end Request

/-- An element at the end is kept unless one with its value came before. -/
theorem eraseDupsBy_concat {β κ : Type} [DecidableEq κ] (f : β → κ) (l : List β) (b : β) :
    (l ++ [b]).eraseDupsBy (fun x y => f x == f y) =
      if f b ∈ l.map f then l.eraseDupsBy (fun x y => f x == f y)
      else l.eraseDupsBy (fun x y => f x == f y) ++ [b] := by
  match l with
  | [] => simp [List.eraseDupsBy_cons]
  | c :: l =>
    have ih := eraseDupsBy_concat f (l.filter fun x => (f x == f c) = false) b
    rw [List.cons_append, List.eraseDupsBy_cons, List.eraseDupsBy_cons, List.filter_append]
    by_cases hb : f b = f c
    · simp [hb]
    · have hmem : f b ∈ (l.filter fun x => (f x == f c) = false).map f ↔
          f b ∈ (c :: l).map f := by
        simp only [List.mem_map, List.mem_filter, List.mem_cons]
        constructor
        · rintro ⟨x, ⟨hx, -⟩, he⟩
          exact ⟨x, Or.inr hx, he⟩
        · rintro ⟨x, rfl | hx, he⟩
          · exact absurd he.symm hb
          · exact ⟨x, ⟨hx, by simpa [he] using hb⟩, he⟩
      rw [List.filter_cons_of_pos (by simpa using hb), List.filter_nil, ih]
      simp only [hmem]
      split <;> rfl
termination_by l.length
decreasing_by exact Nat.lt_succ_of_le (List.length_filter_le _ _)

namespace Addition
variable {history : List (Addition α)} {a : Addition α} {p : Sym2 Int}

theorem key_eq_faceKey (a : Addition α) (n : Int) :
    a.key n = faceKey a.face.inside a.face.outside n := rfl

/-- The tensor of a face between two cells is made entry by entry. -/
theorem tensor_eq [Scalar α] (a : Addition α) : a.tensor = ⟨a.precision,
    (faceTensor a.inside a.outside a.insideFactor a.outsideFactor).map a.precision.cast⟩ := rfl

theorem firsts_concat : firsts (history ++ [a]) =
    if a.pair ∈ history.map pair then firsts history else firsts history ++ [a] :=
  eraseDupsBy_concat pair history a

theorem first?_concat : first? (history ++ [a]) p =
    (first? history p).or (if a.pair = p then some a else none) := by
  rw [first?, List.find?_append, List.find?_singleton]
  simp only [decide_eq_true_eq, first?]

theorem first?_isSome_iff : (first? history p).isSome ↔ p ∈ history.map pair := by
  simp [first?]

theorem mem_of_mem_firsts (h : a ∈ firsts history) : a ∈ history := by
  induction history using List.reverseRecOn with
  | nil => exact h
  | append_singleton history b ih =>
    rw [firsts_concat] at h
    split at h
    · exact List.mem_append_left _ (ih h)
    · exact (List.mem_append.mp h).elim (fun hf => List.mem_append_left _ (ih hf))
        (List.mem_append_right _)

/-- There are as many first additions as pairs. -/
theorem length_firsts (history : List (Addition α)) :
    (firsts history).length = (history.map pair).toFinset.card := by
  induction history using List.reverseRecOn with
  | nil => rfl
  | append_singleton history a ih =>
    rw [firsts_concat, List.map_append, List.toFinset_append, List.map_singleton]
    split
    · rename_i hm
      rw [ih, Finset.union_eq_left.mpr (by simpa using hm)]
    · rename_i hm
      rw [List.length_append, ih, Finset.card_union_of_disjoint (by simpa using hm)]
      rfl

end Addition

/-- A store of `n` cells is what its history calls for. -/
structure Follows [Scalar α] (s : FaceStore α) (n : Int) (history : List (Addition α)) : Prop where
  numActive_eq : s.numActive = n
  toList_eq : s.toList = (Addition.firsts history).map fun a => (a.key n, a.tensor)
  find?_eq : ∀ {i j : Int}, 0 ≤ i ∧ i < n → 0 ≤ j ∧ j < n →
    s.find? i j = (Addition.first? history s(i, j)).map Addition.tensor

theorem toList_offer (s : FaceStore α) (entry : Int × Rounded (Tensor α)) :
    (s.offer entry).toList =
      if (s.entries.lookup entry.1).isSome then s.toList else s.toList ++ [entry] := by
  unfold offer
  split
  · rename_i h
    simp [h]
  · rename_i h
    simp [h, toList]

section
variable [Scalar α] {s : FaceStore α} {n : Int} {history : List (Addition α)}

/-- The store after an addition. -/
def insert (s : FaceStore α) (a : Addition α) : FaceStore α := s.offer (a.key s.numActive, a.tensor)

theorem serve_add (s : FaceStore α) (a : Addition α) : s.serve (.add a) =
    (s.insert a, .added (s.find? a.face.inside a.face.outside).isNone) := by
  simp only [serve, add, find?, insert, offer, a.key_eq_faceKey, a.tensor_eq]
  cases s.entries.lookup (faceKey a.face.inside a.face.outside s.numActive) <;> rfl

theorem find?_insert (s : FaceStore α) (a : Addition α) (i j : Int) :
    (s.insert a).find? i j = (s.find? i j).or
      (if faceKey i j s.numActive = a.key s.numActive then some a.tensor else none) := by
  rw [find?, insert, numActive_offer, lookup_offer, List.lookup_cons, List.lookup_nil, find?]
  split
  · rename_i h
    rw [if_pos (by simpa using h)]
  · rename_i h
    rw [if_neg (by simpa using h)]

theorem follows_nil (n : Int) : ({ numActive := n } : FaceStore α).Follows n [] where
  numActive_eq := rfl
  toList_eq := rfl
  find?_eq _ _ := rfl

namespace Follows
variable {a : Addition α}

theorem isSome_find? (h : s.Follows n history) {i j : Int} (hi : 0 ≤ i ∧ i < n)
    (hj : 0 ≤ j ∧ j < n) :
    (s.find? i j).isSome ↔ s(i, j) ∈ history.map Addition.pair := by
  rw [h.find?_eq hi hj, Option.isSome_map, Addition.first?_isSome_iff]

theorem insert (h : s.Follows n history) (hi : 0 ≤ a.face.inside ∧ a.face.inside < n)
    (ho : 0 ≤ a.face.outside ∧ a.face.outside < n) : (s.insert a).Follows n (history ++ [a]) where
  numActive_eq := by rw [FaceStore.insert, numActive_offer, h.numActive_eq]
  toList_eq := by
    have hsome : (s.entries.lookup (a.key s.numActive)).isSome ↔
        a.pair ∈ history.map Addition.pair := h.isSome_find? hi ho
    rw [FaceStore.insert, toList_offer, Addition.firsts_concat]
    simp only [hsome]
    split
    · exact h.toList_eq
    · rw [h.toList_eq, h.numActive_eq, List.map_append, List.map_singleton]
  find?_eq := by
    intro i j hi' hj'
    have hkey : faceKey i j n = a.key n ↔ a.pair = s(i, j) := by
      rw [a.key_eq_faceKey, faceKey_eq_iff hi' hj' hi ho, Addition.pair, Face.pair, Sym2.eq_iff]
      omega
    rw [find?_insert, h.numActive_eq, h.find?_eq hi' hj', Addition.first?_concat]
    simp only [hkey]
    cases Addition.first? history s(i, j) with
    | some b => rfl
    | none => split <;> rfl

/-- One request: the store goes on following its history and answers from it. -/
theorem serve (h : s.Follows n history) {r : Request α} (hr : r.Within n) :
    (s.serve r).1.Follows n (history ++ r.additions) ∧ (s.serve r).2 = r.answerAfter n history := by
  have hsame : s.Follows n (history ++ []) := by rwa [List.append_nil]
  cases r with
  | add a =>
    rw [serve_add]
    refine ⟨h.insert hr.1 hr.2, congrArg Answer.added ?_⟩
    rw [Bool.eq_iff_iff, Option.isNone_iff_eq_none, decide_eq_true_eq, ← Option.not_isSome_iff_eq_none,
      h.isSome_find? hr.1 hr.2]
    rfl
  | get i j =>
    refine ⟨hsame, congrArg Answer.tensor ?_⟩
    rw [get, h.find?_eq hr.1 hr.2]
    cases Addition.first? history s(i, j) <;> rfl
  | contains i j =>
    refine ⟨hsame, congrArg Answer.contained ?_⟩
    rw [Bool.eq_iff_iff, contains, h.isSome_find? hr.1 hr.2, decide_eq_true_eq]
  | size =>
    refine ⟨hsame, congrArg Answer.size ?_⟩
    rw [size, ← List.length_reverse, ← Addition.length_firsts]
    exact (congrArg List.length h.toList_eq).trans (List.length_map _)
  | keys =>
    refine ⟨hsame, congrArg Answer.keys ?_⟩
    rw [keys, h.toList_eq, List.map_map]
    rfl
  | entries => exact ⟨hsame, congrArg Answer.entries h.toList_eq⟩

/-- A whole run: the answers are those that the additions of the run call for. -/
theorem run (h : s.Follows n history) {requests : List (Request α)}
    (hr : ∀ r ∈ requests, r.Within n) :
    (s.run requests).1.Follows n (history ++ requests.flatMap Request.additions) ∧
      (s.run requests).2 = Request.answersAfter n history requests := by
  induction requests generalizing s history with
  | nil =>
    rw [List.flatMap_nil, List.append_nil]
    exact ⟨h, rfl⟩
  | cons r rest ih =>
    obtain ⟨hs, ha⟩ := h.serve (hr r List.mem_cons_self)
    obtain ⟨hlast, hrest⟩ := ih hs fun q hq => hr q (List.mem_cons_of_mem r hq)
    rw [List.append_assoc, ← List.flatMap_cons] at hlast
    refine ⟨hlast, ?_⟩
    simp only [FaceStore.run, Request.answersAfter, ha, hrest]

end Follows

/-- A tensor that is stored stays whatever is requested. -/
theorem find?_run {i j : Int} {t : Rounded (Tensor α)} (h : s.find? i j = some t)
    (requests : List (Request α)) : (s.run requests).1.find? i j = some t := by
  induction requests generalizing s with
  | nil => exact h
  | cons r rest ih =>
    refine ih (s := (s.serve r).1) ?_
    cases r with
    | add a =>
      rw [serve_add, find?_insert, h]
      rfl
    | _ => exact h

theorem run_append (s : FaceStore α) (requests more : List (Request α)) :
    (s.run (requests ++ more)).1 = ((s.run requests).1.run more).1 := by
  induction requests generalizing s with
  | nil => rfl
  | cons r rest ih => exact ih (s.serve r).1

end

/-- A store of `n` cells answers requests as a map on unordered pairs of cells in which the
first tensor of a pair stays. -/
structure KeepsFirsts [Scalar α] (n : Int) (requests : List (Request α)) : Prop where
  answers_eq : (run { numActive := n } requests).2 = Request.answersAfter n [] requests
  /-- What is stored under a pair at some time is stored at every later time. -/
  stays : ∀ {before after : List (Request α)} {i j : Int} {t : Rounded (Tensor α)},
    requests = before ++ after → (run { numActive := n } before).1.get i j = .ok t →
      (run { numActive := n } requests).1.get i j = .ok t
  /-- The keys give back the smaller and the larger cell of each pair. -/
  keys_ediv_emod : (run { numActive := n } requests).1.keys.map (fun key => (key / n, key % n)) =
    (Addition.firsts (requests.flatMap Request.additions)).map fun a =>
      (min a.face.inside a.face.outside, max a.face.inside a.face.outside)

theorem keepsFirsts [Scalar α] {n : Int} {requests : List (Request α)}
    (h : ∀ r ∈ requests, r.Within n) : KeepsFirsts n requests where
  answers_eq := ((follows_nil n).run h).2
  stays := by
    rintro before after i j t rfl ht
    rw [get_eq_ok_iff] at ht ⊢
    rw [run_append]
    exact find?_run ht after
  keys_ediv_emod := by
    rw [keys, ((follows_nil n).run h).1.toList_eq, List.map_map, List.map_map, List.nil_append]
    refine List.map_congr_left fun a ha => ?_
    obtain ⟨r, hr, ha⟩ := List.mem_flatMap.mp (Addition.mem_of_mem_firsts ha)
    obtain ⟨hi, ho⟩ := Request.within_of_mem_additions (h r hr) ha
    obtain ⟨hdiv, hmod⟩ := faceKey_ediv_emod hi ho
    exact Prod.ext hdiv hmod

/-- A uniform face between two cells of three. -/
def uniformFace (inside outside : Int) (direction : Direction) (k l : Exact) : Request Exact :=
  .add {
    precision := .double
    face := ⟨inside, outside, direction⟩
    inside := Tensor.diagonal ⟨k, k, k⟩
    outside := Tensor.diagonal ⟨l, l, l⟩
    insideFactor := 1.0
    outsideFactor := 1.0 }

/-- A face added from both sides, one more, and a look at each. -/
def rowRequests : List (Request Exact) :=
  [uniformFace 2 1 ⟨.x, false⟩ 2.0 8.0, uniformFace 1 2 ⟨.x, true⟩ 5.0 5.0, .get 1 2,
    uniformFace 0 1 ⟨.x, true⟩ 1.0 1.0, .contains 0 2, .size, .keys]

/-- The pair that is seen from both sides keeps the mean of 2 and 8, that of the first visit. -/
theorem keepsFirsts_row : (∀ r ∈ rowRequests, r.Within 3) ∧ KeepsFirsts 3 rowRequests ∧
    (run { numActive := 3 } rowRequests).2 =
      [.added true, .added false, .tensor (.ok ⟨.double, Tensor.diagonal ⟨3.2, 3.2, 3.2⟩⟩),
        .added true, .contained false, .size 2, .keys [5, 1]] := by
  have hwithin : ∀ r ∈ rowRequests, r.Within 3 := by decide
  have hkeeps := keepsFirsts hwithin
  exact ⟨hwithin, hkeeps, hkeeps.answers_eq.trans (by decide +kernel)⟩

end BlackOil.FaceStore

import BlackOil.Proofs.Permeability.Face
import BlackOil.Scalar.Binary64

/-!
# The cells that faces name

A topology may yield any faces. A face names its cells by indices that count from the front,
or from the end where they are negative, and a build refuses a face exactly if one of them
leads beyond the cells in either direction. So a negative index is not refused: its face gets
the average of cells that it does not name. Without negative indices every stored tensor comes
from the two cells of its face, and different pairs of cells have different entries.
-/
namespace BlackOil
variable {α : Type} [Scalar α]

/-- An index of one of `count` entries, counted from the front or from the end. -/
def Reaches (count : Nat) (index : Int) : Prop := -count ≤ index ∧ index < count

instance (count : Nat) (index : Int) : Decidable (Reaches count index) :=
  inferInstanceAs (Decidable (_ ∧ _))

/-- The index of the same entry, counted from the front. -/
def fromFront (count : Nat) (index : Int) : Int := if index < 0 then index + count else index

theorem fromFront_bounds_iff {count : Nat} {index : Int} :
    0 ≤ fromFront count index ∧ fromFront count index < count ↔ Reaches count index := by
  unfold fromFront Reaches
  split <;> omega

theorem fromFront_of_nonneg {count : Nat} {index : Int} (h : 0 ≤ index) :
    fromFront count index = index := if_neg (Int.not_lt.mpr h)

omit [Scalar α] in
/-- An array has an entry exactly at the indices that reach one. -/
theorem entryAt_eq_ok_iff {β : Type} {values : Array β} {index : Int} {b : β} :
    entryAt values index = .ok b ↔
      Reaches values.size index ∧ values[(fromFront values.size index).toNat]? = some b := by
  have hfold : (if index < 0 then index + values.size else index) =
      fromFront values.size index := rfl
  unfold entryAt
  simp only [hfold, ← fromFront_bounds_iff]
  generalize fromFront values.size index = position
  by_cases hneg : position < 0
  · simp only [if_pos hneg, reduceCtorEq, false_iff]
    omega
  · rw [if_neg hneg]
    cases hb : values[position.toNat]? with
    | none => simp
    | some c =>
      have hlt := (Array.getElem?_eq_some_iff.mp hb).choose
      simp only [Except.ok.injEq, Option.some.injEq]
      exact (and_iff_right ⟨by omega, by omega⟩).symm

omit [Scalar α] in
theorem entryAt_of_reaches {β : Type} {values : Array β} {index : Int} (default : β)
    (h : Reaches values.size index) :
    entryAt values index = .ok (values.getD (fromFront values.size index).toNat default) := by
  have hbounds := fromFront_bounds_iff.mpr h
  have hlt : (fromFront values.size index).toNat < values.size := by omega
  refine entryAt_eq_ok_iff.mpr ⟨h, ?_⟩
  rw [Array.getD_eq_getD_getElem?, Array.getElem?_eq_getElem hlt, Option.getD_some]

namespace Face

/-- Both cells of a face are reached, from the front or from the end. -/
def Reaches (f : Face) (count : Nat) : Prop :=
  BlackOil.Reaches count f.inside ∧ BlackOil.Reaches count f.outside

/-- Both indices of a face are those of cells. -/
def Names (f : Face) (count : Nat) : Prop :=
  (0 ≤ f.inside ∧ f.inside < count) ∧ 0 ≤ f.outside ∧ f.outside < count

/-- The face with its cells counted from the front. -/
def fromFront (f : Face) (count : Nat) : Face where
  inside := BlackOil.fromFront count f.inside
  outside := BlackOil.fromFront count f.outside
  direction := f.direction

theorem names_fromFront_iff {f : Face} {count : Nat} :
    (f.fromFront count).Names count ↔ f.Reaches count :=
  and_congr fromFront_bounds_iff fromFront_bounds_iff

theorem Names.fromFront_eq {f : Face} {count : Nat} (h : f.Names count) :
    f.fromFront count = f := by
  rw [fromFront, fromFront_of_nonneg h.1.1, fromFront_of_nonneg h.2.1]

/-- A face without negative indices reaches cells only if it names them. -/
theorem names_of_nonneg {f : Face} {count : Nat} (h : 0 ≤ f.inside ∧ 0 ≤ f.outside)
    (hf : f.Reaches count) : f.Names count :=
  ⟨⟨h.1, hf.1.2⟩, h.2, hf.2.2⟩

end Face

theorem FaceMultipliers.ofFace_of_reaches {m : FaceMultipliers α} {f : Face} {n : Nat}
    (hp : m.positive.size = n) (hn : m.negative.size = n) (h : f.Reaches n) :
    m.ofFace f = .ok (m.factor f.direction (f.fromFront n).inside,
      m.factor f.direction.opposite (f.fromFront n).outside) := by
  obtain ⟨inside, outside, axis, positive⟩ := f
  obtain ⟨hi, ho⟩ := h
  cases positive with
  | true =>
    subst hp
    simp only [ofFace, if_true]
    rw [entryAt_of_reaches ⟨1.0, 1.0, 1.0⟩ hi, entryAt_of_reaches ⟨1.0, 1.0, 1.0⟩ (hn ▸ ho), hn]
    rfl
  | false =>
    subst hp
    simp only [ofFace, Bool.false_eq_true, if_false]
    rw [entryAt_of_reaches ⟨1.0, 1.0, 1.0⟩ (hn ▸ hi), entryAt_of_reaches ⟨1.0, 1.0, 1.0⟩ ho, hn]
    rfl

/-- What a visit to a face offers to the store of `count` cells. -/
def Face.offered (f : Face) (precision : Precision) (m : FaceMultipliers α)
    (cells : Array (Tensor α)) (count : Nat) : Int × Rounded (Tensor α) :=
  (faceKey f.inside f.outside count,
    ⟨precision, (visitedTensor m cells (f.fromFront count)).map precision.cast⟩)

/-- A visit succeeds exactly at a face that reaches cells. -/
theorem visitFace_eq_ok_iff {precision : Precision} {m : FaceMultipliers α}
    {cells : Array (Tensor α)} {s s' : FaceStore α} {f : Face} {n : Nat}
    (hp : m.positive.size = n) (hn : m.negative.size = n) (hc : cells.size = n)
    (hs : s.numActive = n) : visitFace precision m cells s f = .ok s' ↔
      f.Reaches n ∧ s' = s.offer (f.offered precision m cells n) := by
  have hok : f.Reaches n →
      visitFace precision m cells s f = .ok (s.offer (f.offered precision m cells n)) := by
    intro h
    subst hc
    unfold visitFace
    rw [FaceMultipliers.ofFace_of_reaches hp hn h,
      entryAt_of_reaches (Tensor.diagonal ⟨0.0, 0.0, 0.0⟩) h.1,
      entryAt_of_reaches (Tensor.diagonal ⟨0.0, 0.0, 0.0⟩) h.2]
    simp only [bind, Except.bind, pure, Except.pure, FaceStore.add_fst, hs]
    rfl
  constructor
  · intro h
    have hreaches : f.Reaches n := by
      obtain ⟨⟨insideFactor, outsideFactor⟩, -, h⟩ := Outcome.bind_eq_ok_iff.mp h
      obtain ⟨inside, hi, h⟩ := Outcome.bind_eq_ok_iff.mp h
      obtain ⟨outside, ho, -⟩ := Outcome.bind_eq_ok_iff.mp h
      exact hc ▸ ⟨(entryAt_eq_ok_iff.mp hi).1, (entryAt_eq_ok_iff.mp ho).1⟩
    rw [hok hreaches, Except.ok.injEq] at h
    exact ⟨hreaches, h.symm⟩
  · intro h
    rw [hok h.1, h.2]

/-- Going over the faces succeeds exactly if each of them reaches cells. -/
theorem foldlM_visitFace_eq_ok_iff {precision : Precision} {m : FaceMultipliers α}
    {cells : Array (Tensor α)} {faces : List Face} {s : FaceStore α} {n : Nat}
    (hp : m.positive.size = n) (hn : m.negative.size = n) (hc : cells.size = n) :
    faces.foldlM (visitFace precision m cells) { numActive := n } = .ok s ↔
      (∀ f ∈ faces, f.Reaches n) ∧
        s = (faces.map (·.offered precision m cells n)).foldl FaceStore.offer { numActive := n } := by
  rw [List.foldl_map]
  refine Outcome.foldlM_eq_ok_iff (fun s : FaceStore α => s.numActive = (n : Int)) ?_ ?_ rfl
  · exact fun s hs f t => visitFace_eq_ok_iff hp hn hc hs
  · exact fun s hs f => by rw [FaceStore.numActive_offer, hs]

section Builds
variable {precision : Precision} {deck : Deck α} {t : Topology} {cells : Array (Tensor α)}
  {faces : List Face} {s : FaceStore α}

/-- The faces are built from one tensor for each active cell, the multipliers of the deck and
faces that reach cells. -/
theorem facePermeabilities_eq_ok_iff (hfaces : t.faces = .ok faces) :
    facePermeabilities precision deck t cells = .ok s ↔
      cells.size = t.numActive ∧ (∀ f ∈ faces, f.Reaches t.numActive) ∧
        ∃ m, FaceMultipliers.ofDeck deck t = .ok m ∧
          s = (faces.map (·.offered precision m cells t.numActive)).foldl FaceStore.offer
            { numActive := t.numActive } := by
  have hsizes : ∀ {m : FaceMultipliers α}, FaceMultipliers.ofDeck deck t = .ok m →
      m.positive.size = t.numActive ∧ m.negative.size = t.numActive := by
    intro m hm
    obtain ⟨active, hactive, hp, hn⟩ := FaceMultipliers.ofDeck_eq_ok_iff.mp hm
    have hsize := Topology.size_of_cells_eq_ok hactive
    exact ⟨hp.size_eq.trans hsize, hn.size_eq.trans hsize⟩
  unfold facePermeabilities
  simp only [Outcome.check_eq_ok_iff, Outcome.bind_eq_ok_iff, hfaces, Except.ok.injEq,
    exists_eq_left', Classical.not_not]
  constructor
  · intro h
    obtain ⟨hc, m, hm, h⟩ := h
    obtain ⟨hreach, hs⟩ :=
      (foldlM_visitFace_eq_ok_iff (hsizes hm).1 (hsizes hm).2 hc).mp h
    exact ⟨hc, hreach, m, hm, hs⟩
  · intro h
    obtain ⟨hc, hreach, m, hm, hs⟩ := h
    exact ⟨hc, m, hm,
      (foldlM_visitFace_eq_ok_iff (hsizes hm).1 (hsizes hm).2 hc).mpr ⟨hreach, hs⟩⟩

/-- An entry of a store is the average of two cells, with their multipliers on the two sides of
a face, under the key of the face. -/
def Face.Averages (f : Face) (precision : Precision) (m : FaceMultipliers α)
    (cells : Array (Tensor α)) (first second : Nat) (entry : Int × Rounded (Tensor α)) : Prop :=
  ∃ inside outside, cells[first]? = some inside ∧ cells[second]? = some outside ∧
    entry = (faceKey f.inside f.outside cells.size,
      ⟨precision, (faceTensor inside outside (m.factor f.direction first)
        (m.factor f.direction.opposite second)).map precision.cast⟩)

theorem averages_offered (precision : Precision) (m : FaceMultipliers α)
    (cells : Array (Tensor α)) {f : Face} (h : f.Reaches cells.size) :
    f.Averages precision m cells (f.fromFront cells.size).inside.toNat
      (f.fromFront cells.size).outside.toNat (f.offered precision m cells cells.size) := by
  obtain ⟨⟨hi, hi'⟩, ho, ho'⟩ := Face.names_fromFront_iff.mpr h
  have hinside : (f.fromFront cells.size).inside.toNat < cells.size := by omega
  have houtside : (f.fromFront cells.size).outside.toNat < cells.size := by omega
  refine ⟨_, _, Array.getElem?_eq_getElem hinside, Array.getElem?_eq_getElem houtside, ?_⟩
  simp only [Face.offered, visitedTensor, Int.toNat_of_nonneg hi, Int.toNat_of_nonneg ho,
    Array.getD_eq_getD_getElem?, Array.getElem?_eq_getElem hinside,
    Array.getElem?_eq_getElem houtside, Option.getD_some]
  rfl

/-- Under each key of a face, and under no other key, a store holds the average of the two cells
at which the indices of such a face arrive. -/
structure FaceStore.HoldsFaces (s : FaceStore α) (precision : Precision) (m : FaceMultipliers α)
    (cells : Array (Tensor α)) (faces : List Face) : Prop where
  contains : ∀ f ∈ faces, s.contains f.inside f.outside
  source : ∀ entry ∈ s.entries, ∃ f ∈ faces, f.Averages precision m cells
    (f.fromFront cells.size).inside.toNat (f.fromFront cells.size).outside.toNat entry
  nodup : (s.entries.map Prod.fst).Nodup

theorem holdsFaces_of_facePermeabilities (hfaces : t.faces = .ok faces)
    (h : facePermeabilities precision deck t cells = .ok s) :
    ∃ m, FaceMultipliers.ofDeck deck t = .ok m ∧ s.HoldsFaces precision m cells faces := by
  obtain ⟨hc, hreach, m, hm, rfl⟩ := (facePermeabilities_eq_ok_iff hfaces).mp h
  rw [← hc] at hreach ⊢
  refine ⟨m, hm, fun f hf => ?_, fun entry hentry => ?_, ?_⟩
  · -- The key of the face has been offered, so something has been stored under it.
    have hkey : f.offered precision m cells cells.size ∈
        faces.map (·.offered precision m cells cells.size) := List.mem_map_of_mem hf
    rw [FaceStore.contains, FaceStore.find?, FaceStore.numActive_foldl_offer,
      FaceStore.lookup_foldl_offer, List.lookup_nil, Option.none_or, List.lookup_isSome_iff]
    exact ⟨_, hkey, beq_self_eq_true _⟩
  · rcases FaceStore.mem_entries_foldl_offer hentry with hnone | hoffered
    · cases hnone
    · obtain ⟨f, hf, rfl⟩ := List.mem_map.mp hoffered
      exact ⟨f, hf, averages_offered precision m cells (hreach f hf)⟩
  · exact FaceStore.keys_foldl_offer_nodup _ List.nodup_nil

/-- The faces of a topology are built exactly if their indices, counted from the front or from
the end, are those of cells; each tensor is the average of these cells. Where no index is
negative, a face beyond the cells is refused, and otherwise each tensor is the average of the
two cells that its face names, under a key that no other pair has. -/
theorem facePermeabilities_of_faces (hfaces : t.faces = .ok faces) :
    ((∃ s, facePermeabilities precision deck t cells = .ok s) ↔
      cells.size = t.numActive ∧ (∃ m, FaceMultipliers.ofDeck deck t = .ok m) ∧
        ∀ f ∈ faces, f.Reaches t.numActive) ∧
    (∀ s, facePermeabilities precision deck t cells = .ok s →
      ∃ m, FaceMultipliers.ofDeck deck t = .ok m ∧ s.HoldsFaces precision m cells faces) ∧
    ((∀ f ∈ faces, 0 ≤ f.inside ∧ 0 ≤ f.outside) →
      ((∃ f ∈ faces, ¬f.Names t.numActive) →
        ∃ fault, facePermeabilities precision deck t cells = .error fault) ∧
      ∀ s, facePermeabilities precision deck t cells = .ok s → ∀ f ∈ faces,
        f.Names cells.size ∧ f.fromFront cells.size = f ∧
        ∀ g ∈ faces, faceKey f.inside f.outside cells.size =
            faceKey g.inside g.outside cells.size ↔
          f.inside = g.inside ∧ f.outside = g.outside ∨
            f.inside = g.outside ∧ f.outside = g.inside) := by
  have hbuilt : ∀ s, facePermeabilities precision deck t cells = .ok s ↔ _ := fun s =>
    facePermeabilities_eq_ok_iff hfaces
  refine ⟨?_, fun s hs => holdsFaces_of_facePermeabilities hfaces hs, fun hnonneg => ⟨?_, ?_⟩⟩
  · simp only [hbuilt]
    constructor
    · intro h
      obtain ⟨s, hc, hreach, m, hm, -⟩ := h
      exact ⟨hc, ⟨m, hm⟩, hreach⟩
    · intro h
      obtain ⟨hc, ⟨m, hm⟩, hreach⟩ := h
      exact ⟨_, hc, hreach, m, hm, rfl⟩
  · intro h
    obtain ⟨f, hf, hout⟩ := h
    cases hs : facePermeabilities precision deck t cells with
    | error fault => exact ⟨fault, rfl⟩
    | ok s =>
      obtain ⟨-, hreach, -⟩ := (hbuilt s).mp hs
      exact absurd (Face.names_of_nonneg (hnonneg f hf) (hreach f hf)) hout
  · intro s hs f hf
    obtain ⟨hc, hreach, -⟩ := (hbuilt s).mp hs
    have hnames : ∀ f ∈ faces, f.Names cells.size := fun f hf =>
      Face.names_of_nonneg (hnonneg f hf) (hc ▸ hreach f hf)
    exact ⟨hnames f hf, (hnames f hf).fromFront_eq, fun g hg =>
      faceKey_eq_iff (hnames f hf).1 (hnames f hf).2 (hnames g hg).1 (hnames g hg).2⟩

end Builds

/-- Two cells, and a face whose inside index is the one before the first. -/
def pairBeforeFirst : Topology :=
  ⟨2, #[0, 1], .ok [⟨-1, 0, ⟨.x, true⟩⟩]⟩

/-- A tensor for each of the two cells. -/
def pairTensors : Array (Tensor Float) :=
  #[Tensor.diagonal ⟨1.0, 1.0, 1.0⟩, Tensor.diagonal ⟨2.0, 2.0, 2.0⟩]

theorem reaches_pairBeforeFirst :
    ∀ f ∈ [(⟨-1, 0, ⟨.x, true⟩⟩ : Face)], f.Reaches pairBeforeFirst.numActive := by
  intro f hf
  rw [List.mem_singleton.mp hf]
  exact ⟨by decide, by decide⟩

theorem exists_multipliers_pairBeforeFirst :
    ∃ m, FaceMultipliers.ofDeck ({} : Deck Float) pairBeforeFirst = .ok m := by
  have hcells := Topology.cells_eq_ok (t := pairBeforeFirst) (by decide)
  rw [FaceMultipliers.ofDeck, hcells]
  exact ⟨_, rfl⟩

/-- The face is averaged from the last cell and the first one. -/
theorem facePermeabilities_of_faces_negative :
    pairBeforeFirst.faces = .ok [⟨-1, 0, ⟨.x, true⟩⟩] ∧
    ∃ s, facePermeabilities .double ({} : Deck Float) pairBeforeFirst pairTensors = .ok s :=
  ⟨rfl, (facePermeabilities_of_faces rfl).1.mpr
    ⟨rfl, exists_multipliers_pairBeforeFirst, reaches_pairBeforeFirst⟩⟩

/-- A face that names no cell is not always refused. -/
theorem not_forall_stray_face_refused :
    ¬∀ (deck : Deck Float) (t : Topology) (cells : Array (Tensor Float)) (faces : List Face),
      (∀ c ∈ t.cartesian, 0 ≤ c ∧ c < t.numCartesian) → cells.size = t.numActive →
      t.faces = .ok faces → (∃ f ∈ faces, ¬f.Names t.numActive) →
      ∃ fault, facePermeabilities .double deck t cells = .error fault := by
  intro h
  obtain ⟨fault, hfault⟩ := h {} pairBeforeFirst pairTensors _ (by simp [pairBeforeFirst]) rfl rfl
    ⟨⟨-1, 0, ⟨.x, true⟩⟩, List.mem_singleton_self _, by simp [Face.Names]⟩
  obtain ⟨m, hm⟩ := exists_multipliers_pairBeforeFirst
  have hbuilt : facePermeabilities .double {} pairBeforeFirst pairTensors = .ok _ :=
    (facePermeabilities_eq_ok_iff rfl).mpr ⟨rfl, reaches_pairBeforeFirst, m, hm, rfl⟩
  cases hbuilt.symm.trans hfault

end BlackOil

import BlackOil.Proofs.Model.Ambient
import BlackOil.Scalar.Exact
import Mathlib.Data.List.Forall2

/-!
# Models in single precision

A build in single precision is compared with the build of the same deck in double precision.
Each stage computes in the same way in both and rounds what it has assembled, so both builds
fail alike, and a cell has the rounded values. The faces are another matter. They average the
tensors of the cells as these were assembled, so in single precision the average is one of
rounded tensors, and it is rounded once more.
-/
namespace BlackOil
variable {α : Type} [Scalar α]

omit [Scalar α] in
theorem entryAt_map {β γ : Type} (f : β → γ) (values : Array β) (index : Int) :
    entryAt (values.map f) index = f <$> entryAt values index := by
  unfold entryAt
  simp only [Array.size_map, Array.getElem?_map]
  generalize (if index < 0 then index + (values.size : Int) else index) = position
  by_cases hneg : position < 0
  · rw [if_pos hneg, if_pos hneg]
    rfl
  · rw [if_neg hneg, if_neg hneg]
    cases values[position.toNat]? <;> rfl

section Cells
variable (deck : Deck α) (t : Topology)

theorem rel_cellPorosities : Outcome.Rel (fun double single => single = double.map Scalar.single)
    (cellPorosities .double deck t) (cellPorosities .single deck t) := by
  unfold cellPorosities
  refine .bind_same fun cells _ => .bind_same fun poro _ => .bind_same fun poros _ =>
    .bind_same fun ntgs _ => .bind_same fun multipliers _ => ?_
  dsimp only
  split
  · exact .error _
  · exact .ok (congrArg _ (Array.map_id _).symm)

theorem rel_cellPermeabilities :
    Outcome.Rel (fun double single => single = double.map (Tensor.map Scalar.single))
      (cellPermeabilities .double deck t) (cellPermeabilities .single deck t) := by
  unfold cellPermeabilities
  refine .bind_same fun diagonals _ => .ok ?_
  rw [Array.map_map]
  rfl

theorem rel_initialStates (floor : α) (f : FluidSystem α) (config : Config α) :
    Outcome.Rel
      (fun double single => single.cells = double.cells.map (FluidState.map Scalar.single))
      (initialStates .double floor deck t f config)
      (initialStates .single floor deck t f config) := by
  unfold initialStates
  refine .bind_same fun data _ => .bind_same fun _ _ => .bind_same fun composition _ =>
    .bind_same fun fractions _ => .ok ?_
  rw [Array.map_map]
  rfl

end Cells

/-- Two tensors of a face: one that averages the tensors of its cells, and one that averages
those tensors rounded to single precision, with the same multipliers, and is rounded. -/
def RoundsFace (m : FaceMultipliers α) (cells : Array (Tensor α)) (f : Face)
    (double single : Tensor α) : Prop :=
  ∃ inside outside insideFactor outsideFactor,
    entryAt cells f.inside = .ok inside ∧ entryAt cells f.outside = .ok outside ∧
    m.ofFace f = .ok (insideFactor, outsideFactor) ∧
    double = faceTensor inside outside insideFactor outsideFactor ∧
    single = (faceTensor (inside.map Scalar.single) (outside.map Scalar.single) insideFactor
      outsideFactor).map Scalar.single

/-- Two tensors under a key, those of one of the faces with the key. -/
def RoundsUnder (m : FaceMultipliers α) (cells : Array (Tensor α)) (faces : List Face)
    (n key : Int) (double single : Tensor α) : Prop :=
  ∃ f ∈ faces, faceKey f.inside f.outside n = key ∧ RoundsFace m cells f double single

omit [Scalar α] in
/-- Under the same keys in the same order the same entries are found. -/
theorem lookup_rel {β γ : Type} {R : Int → β → γ → Prop} {l : List (Int × β)}
    {l' : List (Int × γ)} (h : List.Forall₂ (fun p q => q.1 = p.1 ∧ R p.1 p.2 q.2) l l')
    (key : Int) : l.lookup key = none ∧ l'.lookup key = none ∨
      ∃ b c, l.lookup key = some b ∧ l'.lookup key = some c ∧ R key b c := by
  induction h with
  | nil => exact .inl ⟨rfl, rfl⟩
  | @cons p q l l' hpq _ ih =>
    obtain ⟨k, b⟩ := p
    obtain ⟨k', c⟩ := q
    obtain ⟨rfl, hR⟩ := hpq
    rw [List.lookup_cons, List.lookup_cons]
    by_cases hk : key = k'
    · subst hk
      right
      exact ⟨b, c, by simp, by simp, hR⟩
    · rw [beq_false_of_ne hk]
      exact ih

namespace FaceStore

/-- Two stores for `n` cells with the tensors of the same faces under the same keys. -/
structure Rounds (m : FaceMultipliers α) (cells : Array (Tensor α)) (faces : List Face)
    (n : Int) (double single : FaceStore α) : Prop where
  numActive_double : double.numActive = n
  numActive_single : single.numActive = n
  entries : List.Forall₂ (fun d s => s.1 = d.1 ∧
    RoundsUnder m cells faces n d.1 d.2.value s.2.value) double.entries single.entries

namespace Rounds
variable {m : FaceMultipliers α} {cells : Array (Tensor α)} {faces : List Face} {n : Int}
  {double single : FaceStore α}

theorem nil (n : Int) : Rounds m cells faces n { numActive := n } { numActive := n } where
  numActive_double := rfl
  numActive_single := rfl
  entries := .nil

/-- A key is in both stores or in none. -/
theorem lookup (h : Rounds m cells faces n double single) (key : Int) :
    double.entries.lookup key = none ∧ single.entries.lookup key = none ∨
      ∃ k l, double.entries.lookup key = some k ∧ single.entries.lookup key = some l ∧
        RoundsUnder m cells faces n key k.value l.value :=
  lookup_rel (R := fun key (k l : Rounded (Tensor α)) =>
    RoundsUnder m cells faces n key k.value l.value) h.entries key

theorem keys_eq (h : Rounds m cells faces n double single) : single.keys = double.keys := by
  have hkeys : single.entries.map Prod.fst = double.entries.map Prod.fst := by
    rw [← List.forall₂_eq_eq_eq, List.forall₂_map_left_iff, List.forall₂_map_right_iff]
    exact h.entries.flip.imp fun _ _ hentry => hentry.1
  rw [FaceStore.keys, FaceStore.keys, FaceStore.toList, FaceStore.toList, List.map_reverse,
    List.map_reverse, hkeys]

/-- Each pair of cells has a tensor in both stores or in none. -/
theorem get (h : Rounds m cells faces n double single) (first second : Int) :
    Outcome.Rel (RoundsUnder m cells faces n (faceKey first second n))
      (Rounded.value <$> double.get first second) (Rounded.value <$> single.get first second) := by
  unfold FaceStore.get FaceStore.find?
  rw [h.numActive_double, h.numActive_single]
  rcases h.lookup (faceKey first second n) with
    ⟨hdouble, hsingle⟩ | ⟨k, l, hdouble, hsingle, htensors⟩
  · rw [hdouble, hsingle]
    exact .error _
  · rw [hdouble, hsingle]
    exact .ok htensors

/-- Of the tensors of one face the stores take both or none. -/
theorem offer (h : Rounds m cells faces n double single) {key : Int} {k l : Rounded (Tensor α)}
    (htensors : RoundsUnder m cells faces n key k.value l.value) :
    Rounds m cells faces n (double.offer (key, k)) (single.offer (key, l)) := by
  unfold FaceStore.offer
  rcases h.lookup key with ⟨hdouble, hsingle⟩ | ⟨k', l', hdouble, hsingle, -⟩
  · rw [hdouble, hsingle]
    exact ⟨h.numActive_double, h.numActive_single, .cons ⟨rfl, htensors⟩ h.entries⟩
  · rw [hdouble, hsingle]
    exact h

/-- One visit keeps the stores alike, or breaks off in both of them. -/
theorem visitFace (h : Rounds m cells faces n double single) {f : Face} (hf : f ∈ faces) :
    Outcome.Rel (Rounds m cells faces n) (BlackOil.visitFace .double m cells double f)
      (BlackOil.visitFace .single m (cells.map (Tensor.map Scalar.single)) single f) := by
  unfold BlackOil.visitFace
  rw [entryAt_map, entryAt_map]
  refine .bind_same fun factors hfactors => ?_
  obtain ⟨insideFactor, outsideFactor⟩ := factors
  refine (Outcome.Rel.map_self _ _).bind fun inside inside' hinside _ hrounded => ?_
  refine (Outcome.Rel.map_self _ _).bind fun outside outside' houtside _ hrounded' => ?_
  -- the second store averages the rounded tensors of the two cells
  subst hrounded hrounded'
  rw [FaceStore.add_fst, FaceStore.add_fst, h.numActive_double, h.numActive_single]
  exact .ok (h.offer ⟨f, hf, rfl, inside, outside, insideFactor, outsideFactor, hinside, houtside,
    hfactors, rfl, rfl⟩)

end Rounds
end FaceStore

/-- From the tensors of the cells and from these tensors rounded, the stores of a topology are
alike. -/
theorem rel_facePermeabilities (deck : Deck α) (t : Topology) (cells : Array (Tensor α)) :
    Outcome.Rel (fun double single => ∃ m faces, FaceMultipliers.ofDeck deck t = .ok m ∧
        t.faces = .ok faces ∧ FaceStore.Rounds m cells faces t.numActive double single)
      (facePermeabilities .double deck t cells)
      (facePermeabilities .single deck t (cells.map (Tensor.map Scalar.single))) := by
  unfold facePermeabilities
  rw [Array.size_map]
  split
  · exact .error _
  · refine .bind_same fun m hm => .bind_same fun faces hfaces => ?_
    have hempty : FaceStore.Rounds m cells faces t.numActive { numActive := t.numActive }
        { numActive := t.numActive } := .nil _
    refine .mono (.foldlM ?_ hempty) fun _ _ hstores => ⟨m, faces, hm, hfaces, hstores⟩
    exact fun _ _ hstores _ hf => hstores.visitFace hf

namespace ReservoirModel

/-- A model in double precision and the one in single precision of the same deck. What a cell
has in the second is rounded from what it has in the first. The tensors of the faces are found
under the same pairs of cells, but are not rounded from each other. -/
structure Rounds (deck : Deck α) (double single : ReservoirModel α) : Prop where
  grid : single.grid = double.grid
  precision : double.precision = .double ∧ single.precision = .single
  porosities : single.porosities = double.porosities.map Scalar.single
  cellPermeabilities :
    single.cellPermeabilities = double.cellPermeabilities.map (Tensor.map Scalar.single)
  keys : single.facePermeabilities.keys = double.facePermeabilities.keys
  facePermeability : ∃ m faces, FaceMultipliers.ofDeck deck double.grid = .ok m ∧
    double.grid.faces = .ok faces ∧ ∀ first second : Int,
      Outcome.Rel (RoundsUnder m double.cellPermeabilities faces double.numActive
          (faceKey first second double.numActive))
        (double.facePermeability first second) (single.facePermeability first second)
  saturationFunctions : single.saturationFunctions = double.saturationFunctions
  fluidSystem : single.fluidSystem = double.fluidSystem
  initialStates :
    single.initialStates.cells = double.initialStates.cells.map (FluidState.map Scalar.single)
  config : single.config = double.config

theorem rel_built (deck : Deck α) (grid : Option Topology) (config : Option (Config α)) :
    Outcome.Rel (Rounds deck) (built .double deck grid config)
      (built .single deck grid config) := by
  unfold built
  refine .bind_same fun config _ => .bind_same fun t _ => ?_
  refine .bind_same fun fluids _ => ?_
  refine (rel_cellPorosities deck t).bind fun porosities porosities' _ _ hporosities => ?_
  refine (rel_cellPermeabilities deck t).bind fun cells cells' _ _ hcells => ?_
  subst hcells
  refine (rel_facePermeabilities deck t cells).bind fun faces faces' _ _ hfaces => ?_
  refine .bind_same fun functions _ => ?_
  refine (rel_initialStates deck t _ fluids config).bind fun states states' _ _ hstates => .ok ?_
  obtain ⟨m, list, hm, hlist, hstores⟩ := hfaces
  constructor
  case grid => rfl
  case precision => exact ⟨rfl, rfl⟩
  case porosities => exact hporosities
  case cellPermeabilities => rfl
  case keys => exact hstores.keys_eq
  case facePermeability => exact ⟨m, list, hm, hlist, hstores.get⟩
  case saturationFunctions => rfl
  case fluidSystem => rfl
  case initialStates => exact hstates
  case config => rfl

/-- A build in single precision fails exactly when the build in double precision does, with the
same fault. Otherwise it rounds the properties of the cells, and averages the rounded tensors of
the cells on the faces. -/
theorem rel_buildDefaulted_single (s : Session α) (deck : Deck α) (grid : Option Topology)
    (config : Option (Config α)) :
    Outcome.Rel (Rounds deck)
      (s.withPrecision .double fun s => buildDefaulted s deck grid config).1
      (s.withPrecision .single fun s => buildDefaulted s deck grid config).1 := by
  simp only [Session.withPrecision, buildDefaulted_eq]
  exact rel_built deck grid config

/-- Two cells whose permeability is one bit too long for single precision. The multipliers on the
face between them are three. -/
def tripledDeck : Deck Exact where
  arrays := ⟨[("PORO", .real #[0.25, 0.25]), ("PERMX", .real #[16777217.0, 16777217.0]),
    ("MULTX", .real #[3.0, 3.0]), ("MULTX-", .real #[3.0, 3.0]), ("SWAT", .real #[0.25, 0.25]),
    ("SGAS", .real #[0.0, 0.0]), ("PRESSURE", .real #[1e7, 1e7]), ("RS", .real #[0.0, 0.0])],
    by decide⟩
  tables := rowDeck.tables
  dimensions := some rowDimensions
  size_eq := by decide

/-- The tensor between the two cells in a model of some precision. -/
def tripledFace (precision : Precision) : Option (Tensor Exact) :=
  (({} : Session Exact).withPrecision precision fun s =>
    buildDefaulted s tripledDeck none none).1.toOption.bind fun m =>
      (m.facePermeability 0 1).toOption

/-- In single precision the tensor of a face is not always the one of double precision,
rounded. -/
theorem not_forall_facePermeability_single : ¬∀ (s : Session Exact) (deck : Deck Exact)
    (grid : Option Topology) (config : Option (Config Exact))
    (double single : ReservoirModel Exact),
    (s.withPrecision .double fun s => buildDefaulted s deck grid config).1 = .ok double →
    (s.withPrecision .single fun s => buildDefaulted s deck grid config).1 = .ok single →
    ∀ (first second : Int) (k : Tensor Exact), double.facePermeability first second = .ok k →
      single.facePermeability first second = .ok (k.map Scalar.single) := by
  intro h
  have hdouble : tripledFace .double =
      some (Tensor.diagonal ⟨50331651.0, 50331651.0, 50331651.0⟩) := by
    decide +kernel
  have hsingle : tripledFace .single =
      some (Tensor.diagonal ⟨50331648.0, 50331648.0, 50331648.0⟩) := by
    decide +kernel
  obtain ⟨double, hd, hk⟩ := Option.bind_eq_some_iff.mp hdouble
  obtain ⟨single, hs, hl⟩ := Option.bind_eq_some_iff.mp hsingle
  rw [Outcome.toOption_eq_some_iff] at hd hk hs hl
  have hrounded := h {} tripledDeck none none double single hd hs 0 1 _ hk
  rw [hl, Except.ok.injEq] at hrounded
  revert hrounded
  decide +kernel

end ReservoirModel
end BlackOil

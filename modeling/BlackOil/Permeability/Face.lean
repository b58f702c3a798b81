import BlackOil.Permeability.Cell

/-!
# Face permeabilities

A store of tensors under unordered pairs of active cells. The first tensor
stored for a pair stays, from whichever side the pair is named.
-/
namespace BlackOil
variable {α : Type} [Scalar α]

structure FaceStore (α : Type) where
  numActive : Int
  /-- The keys and tensors, the latest first. -/
  entries : List (Int × Rounded (Tensor α)) := []

/-- The tensor of a face between two cells with their multipliers. -/
def faceTensor (inside outside : Tensor α) (insideFactor outsideFactor : α) : Tensor α :=
  Tensor.combine harmonicMean (inside.map (· * insideFactor)) (outside.map (· * outsideFactor))

namespace FaceStore

/-- Stores the tensor of a face unless its pair has one. Says whether it did. -/
def add (s : FaceStore α) (precision : Precision) (f : Face) (inside outside : Tensor α)
    (insideFactor outsideFactor : α) : FaceStore α × Bool :=
  let key := faceKey f.inside f.outside s.numActive
  match s.entries.lookup key with
  | some _ => (s, false)
  | none =>
    let tensor := (faceTensor inside outside insideFactor outsideFactor).map precision.cast
    ({ s with entries := (key, ⟨precision, tensor⟩) :: s.entries }, true)

omit [Scalar α]

def find? (s : FaceStore α) (first second : Int) : Option (Rounded (Tensor α)) :=
  s.entries.lookup (faceKey first second s.numActive)

/-- The tensor of a pair of cells, in either order. -/
def get (s : FaceStore α) (first second : Int) : Except Fault (Rounded (Tensor α)) :=
  match s.find? first second with
  | some tensor => .ok tensor
  | none => .error (.noFace first second)

def contains (s : FaceStore α) (first second : Int) : Bool := (s.find? first second).isSome

def size (s : FaceStore α) : Nat := s.entries.length

/-- The keys and tensors in the order in which they were stored. -/
def toList (s : FaceStore α) : List (Int × Rounded (Tensor α)) := s.entries.reverse

def keys (s : FaceStore α) : List Int := s.toList.map Prod.fst

end FaceStore

/-- Visits a face: averages the tensors of its two cells and stores the result. -/
def visitFace (precision : Precision) (m : FaceMultipliers α) (cells : Array (Tensor α))
    (s : FaceStore α) (f : Face) : Except Fault (FaceStore α) := do
  let (insideFactor, outsideFactor) ← m.ofFace f
  let inside ← entryAt cells f.inside
  let outside ← entryAt cells f.outside
  return (s.add precision f inside outside insideFactor outsideFactor).1

/-- The permeabilities of the faces of a topology, from one tensor per active cell. -/
def facePermeabilities (precision : Precision) (deck : Deck α) (t : Topology)
    (cells : Array (Tensor α)) : Except Fault (FaceStore α) := do
  if cells.size ≠ t.numActive then throw (.tensorShape t.numActive [cells.size, 3, 3])
  let m ← FaceMultipliers.ofDeck deck t
  let faces ← t.faces
  faces.foldlM (visitFace precision m cells) { numActive := t.numActive }

end BlackOil

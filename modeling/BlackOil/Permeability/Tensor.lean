import BlackOil.Batch
import BlackOil.Grid.Direction

/-!
# Tensors

Values along the three axes, permeability tensors, and the harmonic mean that
joins the permeabilities of two cells.
-/
namespace BlackOil

/-- A value for each axis. -/
structure Triple (β : Type) where
  x : β
  y : β
  z : β
  deriving DecidableEq, Repr

namespace Triple
variable {β γ δ : Type}

def get (t : Triple β) : Axis → β
  | .x => t.x
  | .y => t.y
  | .z => t.z

def map (f : β → γ) (t : Triple β) : Triple γ := ⟨f t.x, f t.y, f t.z⟩

def combine (f : β → γ → δ) (s : Triple β) (t : Triple γ) : Triple δ :=
  ⟨f s.x t.x, f s.y t.y, f s.z t.z⟩

def toList (t : Triple β) : List β := [t.x, t.y, t.z]

@[simp] theorem get_map (f : β → γ) (t : Triple β) (a : Axis) :
    (t.map f).get a = f (t.get a) := by cases a <;> rfl

@[simp] theorem get_combine (f : β → γ → δ) (s : Triple β) (t : Triple γ) (a : Axis) :
    (combine f s t).get a = f (s.get a) (t.get a) := by cases a <;> rfl

end Triple

/-- A permeability tensor, by rows. -/
abbrev Tensor (α : Type) := Triple (Triple α)

namespace Tensor
variable {α β γ : Type}

def entry (t : Tensor α) (row column : Axis) : α := (t.get row).get column

def map (f : α → β) (t : Tensor α) : Tensor β := Triple.map (Triple.map f) t

def combine (f : α → β → γ) (s : Tensor α) (t : Tensor β) : Tensor γ :=
  Triple.combine (Triple.combine f) s t

@[simp] theorem entry_map (f : α → β) (t : Tensor α) (r c : Axis) :
    (t.map f).entry r c = f (t.entry r c) := by simp [map, entry]

@[simp] theorem entry_combine (f : α → β → γ) (s : Tensor α) (t : Tensor β) (r c : Axis) :
    (combine f s t).entry r c = f (s.entry r c) (t.entry r c) := by simp [combine, entry]

/-- The tensor with the given diagonal and zeros beside it. -/
def diagonal [Scalar α] (d : Triple α) : Tensor α :=
  ⟨⟨d.x, 0.0, 0.0⟩, ⟨0.0, d.y, 0.0⟩, ⟨0.0, 0.0, d.z⟩⟩

/-- The tensors of a batch with one row of nine values per cell. -/
def ofValues : List α → List (Tensor α)
  | a :: b :: c :: d :: e :: f :: g :: h :: i :: rest =>
    ⟨⟨a, b, c⟩, ⟨d, e, f⟩, ⟨g, h, i⟩⟩ :: ofValues rest
  | _ => []

/-- The tensors of a batch of shape `(cells, 3, 3)`. -/
def ofBatch (cells : Nat) (b : Batch α) : Except Fault (Array (Tensor α)) :=
  if b.shape = [cells, 3, 3] then .ok (ofValues b.values).toArray
  else .error (.tensorShape cells b.shape)

end Tensor

/-- The harmonic mean of two values, zero where their product is not positive. -/
def harmonicMean {α : Type} [Scalar α] (a b : α) : α :=
  if a * b ≤ 0.0 then 0.0 else (2.0 * a * b) / (a + b)

/-- Values rounded to a precision, with the precision they were rounded to. -/
structure Rounded (β : Type) where
  precision : Precision
  value : β
  deriving DecidableEq, Repr

end BlackOil

import BlackOil.Fault
import BlackOil.Scalar

/-!
# Batches

A batch is a scalar or a box of scalars: its values in row-major order under a
shape, the empty shape for a scalar. Two batches are combined entry by entry
after both are stretched to a common shape. Shapes are matched from the last
axis on; an axis of length one, or one that is not there, stretches to any
length.
-/
namespace BlackOil

/-- The entry of an array at an index. A negative index counts from the end. -/
def entryAt {β : Type} (values : Array β) (index : Int) : Except Fault β :=
  let position := if index < 0 then index + values.size else index
  match if position < 0 then none else values[position.toNat]? with
  | some b => .ok b
  | none => .error (.beyondAxis index 0 values.size)

structure Batch (β : Type) where
  shape : List Nat
  values : List β
  deriving DecidableEq, Repr

namespace Batch
variable {β γ δ : Type}

def scalar (b : β) : Batch β := ⟨[], [b]⟩

def ofList (values : List β) : Batch β := ⟨[values.length], values⟩

def map (f : β → γ) (x : Batch β) : Batch γ := ⟨x.shape, x.values.map f⟩

/-- Applies a function to all values at once. -/
def mapAll (f : List β → List γ) (x : Batch β) : Batch γ := ⟨x.shape, f x.values⟩

/-- The common shape of two shapes, all three given from the last axis on. -/
def commonReversed : List Nat → List Nat → Option (List Nat)
  | [], t => some t
  | s, [] => some s
  | a :: s, b :: t =>
    if a = b ∨ b = 1 then (a :: ·) <$> commonReversed s t
    else if a = 1 then (b :: ·) <$> commonReversed s t
    else none

/-- The common shape of two shapes, where they have one. -/
def common? (s t : List Nat) : Option (List Nat) :=
  List.reverse <$> commonReversed s.reverse t.reverse

/-- Stretches values from a shape to one with as many axes. -/
def stretch : List Nat → List Nat → List β → List β
  | a :: s, b :: t, values =>
    if a = b then
      let size := s.foldl (· * ·) 1
      (List.range a).flatMap fun i => stretch s t ((values.drop (i * size)).take size)
    else (List.replicate b (stretch s t values)).flatten
  | _, _, values => values

/-- The values of a batch stretched to a shape. -/
def stretchTo (x : Batch β) (shape : List Nat) : List β :=
  stretch (List.replicate (shape.length - x.shape.length) 1 ++ x.shape) shape x.values

/-- Combines two batches entry by entry. -/
def combine (f : β → γ → δ) (x : Batch β) (y : Batch γ) : Except Fault (Batch δ) :=
  match common? x.shape y.shape with
  | some shape => .ok ⟨shape, List.zipWith f (x.stretchTo shape) (y.stretchTo shape)⟩
  | none => .error (.shapes x.shape y.shape)

/-- The values at the marked positions. -/
def compress (mask : List Bool) (values : List β) : List β :=
  ((mask.zip values).filter Prod.fst).map Prod.snd

/-- Puts new values in the marked positions, one after the other. -/
def scatter : List Bool → List β → List β → List β
  | true :: mask, _ :: values, b :: new => b :: scatter mask values new
  | _ :: mask, b :: values, new => b :: scatter mask values new
  | _, values, _ => values

/-- The batches of the entries with index 0, 1 and 2 on the last axis. -/
def splitLast (x : Batch β) : Except Fault (Batch β × Batch β × Batch β) :=
  match x.shape.getLast? with
  | none => .error (.beyondAxis 0 0 0)
  | some size =>
    if size < 3 then .error (.beyondAxis size (x.shape.length - 1) size)
    else
      let pick (i : Nat) : Batch β :=
        ⟨x.shape.dropLast, (x.values.zipIdx.filter fun (_, n) => n % size = i).map Prod.fst⟩
      .ok (pick 0, pick 1, pick 2)

example : combine (· + ·) ⟨[2, 1], [10, 20]⟩ (ofList [1, 2, 3]) =
    .ok ⟨[2, 3], [11, 12, 13, 21, 22, 23]⟩ := by rfl
example : combine (· + ·) (scalar 5) (ofList []) = .ok ⟨[0], []⟩ := by rfl
example : combine (· + ·) (ofList [1, 2]) (ofList [1, 2, 3]) = .error (.shapes [2] [3]) := by rfl

end Batch
end BlackOil

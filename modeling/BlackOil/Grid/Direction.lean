/-!
# Directions

The three axes of a grid and the six faces of a cell. Faces are numbered along
the axes, the negative side first.
-/
namespace BlackOil

inductive Axis where
  | x | y | z
  deriving DecidableEq, Repr

/-- A face of a cell, named by its axis and its side. -/
structure Direction where
  axis : Axis
  positive : Bool
  deriving DecidableEq, Repr

/-- A cell's place in a grid, or a step between two places. -/
structure Location where
  i : Int
  j : Int
  k : Int
  deriving DecidableEq, Repr

def Axis.all : List Axis := [.x, .y, .z]

def Axis.name : Axis → String
  | .x => "X"
  | .y => "Y"
  | .z => "Z"

namespace Direction

/-- The six directions by number. -/
def all : List Direction := Axis.all.flatMap fun axis => [⟨axis, false⟩, ⟨axis, true⟩]

@[simp] theorem mem_all (d : Direction) : d ∈ all := by
  obtain ⟨axis, positive⟩ := d
  cases axis <;> cases positive <;> decide

def ofNumber? (n : Int) : Option Direction :=
  match n with
  | .ofNat n => all[n]?
  | .negSucc _ => none

def name (d : Direction) : String := d.axis.name ++ if d.positive then "_PLUS" else "_MINUS"

def opposite (d : Direction) : Direction := { d with positive := !d.positive }

@[simp] theorem opposite_opposite (d : Direction) : d.opposite.opposite = d := by
  simp [opposite]

/-- The neighbouring location in a direction. -/
def move (d : Direction) (p : Location) : Location :=
  let step := if d.positive then 1 else -1
  match d.axis with
  | .x => { p with i := p.i + step }
  | .y => { p with j := p.j + step }
  | .z => { p with k := p.k + step }

@[simp] theorem move_opposite_move (d : Direction) (p : Location) :
    d.opposite.move (d.move p) = p := by
  obtain ⟨axis, positive⟩ := d
  cases axis <;> cases positive <;>
    simp only [move, opposite, Bool.not_true, Bool.not_false, Bool.false_eq_true, if_true, if_false,
      Int.add_neg_cancel_right, Int.neg_add_cancel_right]

example : all.map name = ["X_MINUS", "X_PLUS", "Y_MINUS", "Y_PLUS", "Z_MINUS", "Z_PLUS"] := by
  decide

end Direction
end BlackOil

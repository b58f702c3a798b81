import BlackOil.Batch
import BlackOil.Grid.Direction

/-!
# Topologies

A topology says which cartesian cell each active cell is and which pairs of
active cells share a face. Nothing is assumed of the map or of the faces:
whoever reads a topology checks what it reads.
-/
namespace BlackOil

/-- The direction of a number from 0 to 5. -/
def Direction.ofNumber (n : Int) : Except Fault Direction :=
  match ofNumber? n with
  | some d => .ok d
  | none => .error (.direction n)

/-- A face between two active cells, seen from the inside cell. -/
structure Face where
  inside : Int
  outside : Int
  direction : Direction
  deriving DecidableEq, Repr

structure Topology where
  numCartesian : Int
  /-- The cartesian index of each active cell. -/
  cartesian : Array Int
  /-- The faces in the order of the walk, or why the walk breaks off. -/
  faces : Except Fault (List Face)

/-- The key of an unordered pair of active cells in a grid of `count` of them. -/
def faceKey (first second count : Int) : Int := min first second * count + max first second

theorem faceKey_comm (first second count : Int) :
    faceKey first second count = faceKey second first count := by
  simp [faceKey, Int.min_comm, Int.max_comm]

namespace Topology

def numActive (t : Topology) : Nat := t.cartesian.size

/-- The cartesian index of an active cell, whether or not it lies in the grid. -/
def cartesianIndex (t : Topology) (active : Int) : Except Fault Int :=
  match if active < 0 then none else t.cartesian[active.toNat]? with
  | some cell => .ok cell
  | none => .error (.activeIndex active t.numActive)

/-- The cartesian cell of every active cell. All must lie in the cartesian grid. -/
def cells (t : Topology) : Except Fault (Array Nat) :=
  match t.cartesian.findIdx? fun c => c < 0 || t.numCartesian ≤ c with
  | some active => .error (.strayCell active (t.cartesian.getD active 0) t.numCartesian)
  | none => .ok (t.cartesian.map Int.toNat)

end Topology

/-- The values of the given cells. The last of the cells in the cartesian order must have one. -/
def gather {β : Type} (keyword : String) (values : Array β) (cells : Array Nat) :
    Except Fault (Array β) :=
  let last := cells.foldl max 0
  if 0 < cells.size ∧ values.size ≤ last then .error (.beyondValues last values.size keyword)
  else cells.mapM fun (c : Nat) => entryAt values c

end BlackOil

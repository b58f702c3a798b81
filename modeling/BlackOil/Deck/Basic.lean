import BlackOil.Deck.Catalog
import BlackOil.Fault
import BlackOil.Scalar
import BlackOil.Text.UpperCase

/-!
# Decks

A deck holds one value per cartesian cell under some keywords, tables under
others, and possibly the dimensions of its grid. Keywords are upper case, and a
deck with dimensions has as many values under each cell keyword as the grid has
cells. Cells are counted in the order `i + nx * j + nx * ny * k`.
-/
namespace BlackOil

/-- The size of a grid along each axis. -/
structure Dimensions where
  nx : Nat
  ny : Nat
  nz : Nat
  nx_pos : 0 < nx
  ny_pos : 0 < ny
  nz_pos : 0 < nz
  deriving DecidableEq

namespace Dimensions

def count (d : Dimensions) : Nat := d.nx * d.ny * d.nz

def toList (d : Dimensions) : List Int := [d.nx, d.ny, d.nz]

/-- Dimensions from three positive integers. -/
def ofList? : List Int → Option Dimensions
  | [.ofNat x, .ofNat y, .ofNat z] =>
    if h : 0 < x ∧ 0 < y ∧ 0 < z then some ⟨x, y, z, h.1, h.2.1, h.2.2⟩ else none
  | _ => none

theorem toList_of_ofList? {sizes : List Int} {d : Dimensions} (h : ofList? sizes = some d) :
    d.toList = sizes := by
  unfold ofList? at h
  split at h
  · split at h
    · cases h
      rfl
    · cases h
  · cases h

theorem ofList?_toList (d : Dimensions) : ofList? d.toList = some d := by
  simp [ofList?, toList, d.nx_pos, d.ny_pos, d.nz_pos]

theorem toList_injective {d d' : Dimensions} (h : d.toList = d'.toList) : d = d' := by
  have hd := d.ofList?_toList
  rw [h, ofList?_toList] at hd
  exact (Option.some.inj hd).symm

end Dimensions

/-- The values of one keyword, one per cartesian cell. -/
inductive CellValues (α : Type) where
  | real (values : Array α)
  | whole (values : Array Int)

/-- One record of a table. -/
abbrev Record (α : Type) := List α

/-- A table is a list of records. -/
abbrev Table (α : Type) := List (Record α)

/-- The keywords whose values are whole numbers. -/
def wholeKeywords : List String := ["SATNUM", "ACTNUM"]

namespace CellValues
variable {α : Type} [Scalar α]

/-- Values under a keyword. Those of a whole-number keyword are truncated. -/
def ofArray (keyword : String) (values : Array α) : CellValues α :=
  if keyword ∈ wholeKeywords then whole (values.map Scalar.toWord) else real values

def reals : CellValues α → Array α
  | real values => values
  | whole values => values.map Scalar.ofInt

def wholes : CellValues α → Array Int
  | real values => values.map Scalar.toWord
  | whole values => values

end CellValues

def CellValues.size {α : Type} : CellValues α → Nat
  | real values => values.size
  | whole values => values.size

structure Deck (α : Type) where
  arrays : Catalog (CellValues α) := {}
  tables : Catalog (List (Table α)) := {}
  dimensions : Option Dimensions := none
  size_eq : ∀ d ∈ dimensions, ∀ entry ∈ arrays.entries, entry.2.size = d.count := by simp

namespace Deck
variable {α : Type}

/-- The deck of a catalog of arrays and one of tables. The dimensions are checked
first and then the arrays in their order. -/
def ofCatalogs (arrays : Catalog (CellValues α)) (tables : Catalog (List (Table α))) :
    Option (List Int) → Except Fault (Deck α)
  | none => .ok { arrays, tables }
  | some sizes =>
    match Dimensions.ofList? sizes with
    | none => .error (.deckDimensions sizes)
    | some d =>
      match h : arrays.entries.find? (·.2.size ≠ d.count) with
      | some (keyword, values) => .error (.cellCount keyword values.size d.count)
      | none => .ok {
          arrays, tables
          dimensions := some d
          size_eq := by simpa using h }

variable [Scalar α]

/-- Builds a deck from arrays and tables under keywords of any case. -/
def ofLists (arrays : List (String × Array α)) (tables : List (String × List (Table α)))
    (dimensions : Option (List Int)) : Except Fault (Deck α) :=
  let arrays := Catalog.ofList (arrays.map fun (keyword, values) =>
    (Text.upper keyword, CellValues.ofArray (Text.upper keyword) values))
  let tables := Catalog.ofList (tables.map fun (keyword, tables) => (Text.upper keyword, tables))
  ofCatalogs arrays tables dimensions

omit [Scalar α]

/-- The number of cartesian cells, where the deck has dimensions. -/
def numCells (d : Deck α) : Option Nat := d.dimensions.map Dimensions.count

def hasKeyword (d : Deck α) (keyword : String) : Bool :=
  d.arrays.contains (Text.upper keyword) || d.tables.contains (Text.upper keyword)

def array? (d : Deck α) (keyword : String) : Option (CellValues α) :=
  d.arrays.find? (Text.upper keyword)

/-- The cell values of a mandatory keyword, with the reason why it is needed. -/
def array (d : Deck α) (keyword : String) (reason : String) : Except Fault (CellValues α) :=
  match d.array? keyword with
  | some values => .ok values
  | none => .error (.missingKeyword (Text.upper keyword) reason)

/-- The tables of a mandatory keyword. A keyword without tables counts as absent. -/
def tablesOf (d : Deck α) (keyword : String) (reason : String) :
    Except Fault (List (Table α)) :=
  match d.tables.find? (Text.upper keyword) with
  | some (table :: rest) => .ok (table :: rest)
  | _ => .error (.missingKeyword (Text.upper keyword) reason)

end Deck
end BlackOil

import BlackOil.Constants
import BlackOil.Deck.Basic

/-!
# Keywords

What the keywords of a deck text introduce, and the factors that bring their
METRIC values to SI units.
-/
namespace BlackOil

/-- The keywords that hold tables. -/
inductive TableKeyword where
  | oilWater
  | gasOil
  | dryGas
  | water
  | density
  | liveOil
  deriving DecidableEq, Repr

/-- What a word in column one introduces. -/
inductive Keyword where
  | dimensions
  | cells (name : String)
  | tables (keyword : TableKeyword)
  | unitSystem (name : String)
  | other
  deriving DecidableEq, Repr

def TableKeyword.name : TableKeyword → String
  | oilWater => "SWOF"
  | gasOil => "SGOF"
  | dryGas => "PVDG"
  | water => "PVTW"
  | density => "DENSITY"
  | liveOil => "PVTO"

def TableKeyword.all : List TableKeyword := [oilWater, gasOil, dryGas, water, density, liveOil]

namespace Keyword

def realKeywords : List String :=
  ["PERMX", "PERMY", "PERMZ", "NTG", "PORO", "MULTPV", "MULTX", "MULTX-", "MULTY", "MULTY-",
    "MULTZ", "MULTZ-", "SWAT", "SGAS", "PRESSURE", "RS"]

def unitSystems : List String := ["FIELD", "LAB", "PVT-M"]

/-- What an upper-case word introduces. -/
def ofName (name : String) : Keyword :=
  if name ∈ unitSystems then unitSystem name
  else if name = "DIMENS" then dimensions
  else if name ∈ realKeywords ∨ name ∈ wholeKeywords then cells name
  else match TableKeyword.all.find? (·.name = name) with
    | some keyword => tables keyword
    | none => other

/-- What a word of any case introduces. -/
def ofText (text : List Char) : Keyword := ofName (Text.upper (String.ofList text))

end Keyword

variable {α : Type} [Scalar α]

/-- The factor of the values of a cell keyword. -/
def cellFactor (constants : Constants α) (name : String) : α :=
  if name ∈ ["PERMX", "PERMY", "PERMZ"] then constants.get .millidarcy
  else if name = "PRESSURE" then constants.get .bar
  else 1.0

namespace TableKeyword

/-- The factors of the columns of a table. They repeat along a record. -/
def columnFactors (constants : Constants α) : TableKeyword → List α
  | oilWater | gasOil => [1.0, 1.0, 1.0, constants.get .bar]
  | dryGas | liveOil => [constants.get .bar, 1.0, constants.get .centipoise]
  | water =>
    [constants.get .bar, 1.0, constants.get .perBar, constants.get .centipoise,
      constants.get .perBar]
  | density => [1.0]

/-- How many items of a record stand before its first column. -/
def leadingItems : TableKeyword → Nat
  | liveOil => 1
  | _ => 0

/-- The factor of the item at a position of a record. -/
def factor (constants : Constants α) (keyword : TableKeyword) (position : Nat) : α :=
  if position < keyword.leadingItems then 1.0
  else
    let factors := keyword.columnFactors constants
    factors.getD ((position - keyword.leadingItems) % factors.length) 1.0

/-- A record in SI units. -/
def toSI (constants : Constants α) (keyword : TableKeyword) (record : Record α) : Record α :=
  record.mapIdx fun position value => value * keyword.factor constants position

end TableKeyword
end BlackOil

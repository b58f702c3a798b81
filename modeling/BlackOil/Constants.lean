import BlackOil.Fault
import BlackOil.Scalar

/-!
# Constants

Named constants with a description and a unit. A store answers with the last
constant assigned to a name and else with the default of that name, so the nine
quantities that the models need always have a value.

As attributes of a store constants are assigned and read under names that do not
begin with an underscore. Such names are reserved: a few of them are attributes of
the store itself, which hold no constants, and under the others there is nothing.
-/
namespace BlackOil

structure Constant (α : Type) where
  value : α
  description : Option String := none
  unit : Option String := none

/-- The value followed by the unit. -/
def Constant.text {α : Type} [Scalar α] (c : Constant α) : String :=
  Scalar.text c.value ++ c.unit.getD ""

/-- The quantities that the models read from a store. -/
inductive Quantity where
  | reservoirTemperature
  | waterMolarMass
  | oilMolarMass
  | gasMolarMass
  | bar
  | millidarcy
  | centipoise
  | perBar
  | volumeFactorFloor
  deriving DecidableEq, Repr

namespace Quantity

def all : List Quantity :=
  [reservoirTemperature, waterMolarMass, oilMolarMass, gasMolarMass, bar, millidarcy, centipoise,
    perBar, volumeFactorFloor]

def name : Quantity → String
  | reservoirTemperature => "DEFAULT_RESERVOIR_TEMPERATURE"
  | waterMolarMass => "MOLAR_MASS_WATER"
  | oilMolarMass => "MOLAR_MASS_OIL"
  | gasMolarMass => "MOLAR_MASS_GAS"
  | bar => "BAR_TO_PA"
  | millidarcy => "MD_TO_M2"
  | centipoise => "CP_TO_PA_S"
  | perBar => "PER_BAR_TO_PER_PA"
  | volumeFactorFloor => "MIN_FORMATION_VOLUME_FACTOR"

def ofName? (name : String) : Option Quantity := all.find? (·.name = name)

def default {α : Type} [Scalar α] : Quantity → Constant α
  | reservoirTemperature =>
    ⟨293.15, some "Uniform reservoir temperature assumed by the black-oil model", some "K"⟩
  | waterMolarMass => ⟨18e-3, some "Molar mass of the water component", some "kg/mol"⟩
  | oilMolarMass => ⟨175e-3, some "Molar mass of the (heavy) oil component", some "kg/mol"⟩
  | gasMolarMass => ⟨24e-3, some "Molar mass of the (light) gas component", some "kg/mol"⟩
  | bar => ⟨1e5, some "Conversion factor from bar to Pascal", some "Pa/bar"⟩
  | millidarcy =>
    ⟨9.869233e-16, some "Conversion factor from millidarcies to square meters", some "m²/mD"⟩
  | centipoise =>
    ⟨0.001, some "Conversion factor from centipoise to Pascal-seconds", some "Pa·s/cP"⟩
  | perBar =>
    ⟨1e-5, some "Conversion factor for compressibilities from 1/bar to 1/Pa", some "bar/Pa"⟩
  | volumeFactorFloor =>
    ⟨1e-12, some "Lower clamp for interpolated/extrapolated formation volume factors",
      some "fraction"⟩

theorem ofName?_name (q : Quantity) : ofName? q.name = some q := by
  cases q <;> decide +kernel

end Quantity

/-- Whether a store may have an attribute of its own under a name. -/
def isOwnAttribute (name : String) : Bool :=
  name == "_store" || name == "_constants" || ['_', '_'].isPrefixOf name.toList

/-- A name of an attribute that a store does not have of its own. -/
structure AttributeName where
  text : String
  notOwn : isOwnAttribute text = false

/-- Whether a name begins with an underscore. -/
def AttributeName.isReserved (name : AttributeName) : Bool := name.text.toList.head? == some '_'

/-- A store of constants: the assignments made to it, latest first. -/
structure Constants (α : Type) where
  assigned : List (String × Constant α) := []

namespace Constants
variable {α : Type} [Scalar α]

def find? (s : Constants α) (name : String) : Option (Constant α) :=
  s.assigned.lookup name <|> (Quantity.ofName? name).map Quantity.default

def assign (s : Constants α) (name : String) (c : Constant α) : Constants α :=
  ⟨(name, c) :: s.assigned⟩

/-- Assigns a bare value as an attribute. -/
def set (s : Constants α) (name : AttributeName) (value : α) : Except Fault (Constants α) :=
  if name.isReserved then .error (.unknownConstant name.text)
  else .ok (s.assign name.text { value })

/-- The value of an attribute. -/
def read (s : Constants α) (name : AttributeName) : Except Fault α :=
  if name.isReserved then .error (.unknownConstant name.text)
  else match s.find? name.text with
    | some c => .ok c.value
    | none => .error (.unknownConstant name.text)

def get (s : Constants α) (q : Quantity) : α :=
  ((s.assigned.lookup q.name).getD q.default).value

/-- The molar mass of each component. -/
def molarMasses (s : Constants α) : PerComponent α :=
  ⟨s.get .waterMolarMass, s.get .oilMolarMass, s.get .gasMolarMass⟩

/-- The least value of volume factors and viscosities read from a table. -/
def floor (s : Constants α) : α := s.get .volumeFactorFloor

theorem find?_assign (s : Constants α) (name other : String) (c : Constant α) :
    (s.assign name c).find? other = if other = name then some c else s.find? other := by
  by_cases h : other = name
  · simp [find?, assign, h]
  · simp [find?, assign, h, List.lookup_cons, beq_false_of_ne h]

end Constants
end BlackOil

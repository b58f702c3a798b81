import BlackOil.Phase

/-!
# Faults

Every way in which reading a deck, building a model or asking it can fail, as a
cause with what it is about. `Fault.kind` sorts the causes into the kinds that a
caller tells apart, and `Fault.message` words them.
-/
namespace BlackOil

/-- A column of pressures or ratios that has to increase. -/
inductive Abscissa where
  | dissolvedGas
  | bubblePoints
  | branch (record : Nat)
  | gasPressures
  deriving DecidableEq, Repr

def Abscissa.text : Abscissa → String
  | .dissolvedGas => "PVTO dissolved gas-oil ratios"
  | .bubblePoints => "PVTO bubble point pressures"
  | .branch record => s!"Undersaturated pressures of PVTO record {record}"
  | .gasPressures => "PVDG pressures"

inductive Fault where
  -- Deck text
  | unitSystem (keyword : String)
  | dimensionCount (count : Nat)
  | undefinedDimension
  | infiniteDimension
  | defaultedCells (keyword : String)
  | unexpectedToken (token keyword : String)
  | unterminatedRecord (keyword : String)
  | missingFile (path : String)
  | undecodableFile
  -- Deck
  | deckDimensions (dimensions : List Int)
  | cellCount (keyword : String) (actual : Nat) (expected : Nat)
  | missingKeyword (keyword : String) (reason : String)
  -- Grid
  | gridDimensions (dimensions : List Int)
  | negativeCellCount
  | largeCellCount
  | maskSize (actual : Nat) (expected : Int)
  | activeIndex (index count : Int)
  | cartesianIndex (index count : Int)
  | strayCell (active : Nat) (index count : Int)
  | direction (number : Int)
  | beyondAxis (index : Int) (axis size : Nat)
  -- Cell properties
  | beyondValues (index count : Nat) (keyword : String)
  | negativePorosity
  | tensorShape (cells : Nat) (actual : List Nat)
  | noFace (first second : Int)
  -- Saturation functions
  | equalPhases
  | sampleCount (column : String) (expected actual : Nat)
  | fewSamples
  | unorderedSamples
  | oilWaterPhases
  | gasOilPhases
  | tableCounts (oilWater gasOil : Nat)
  | tableRows (region : Nat) (keyword : String) (count : Nat)
  | defaultedTable (region : Nat) (keyword : String)
  | regionNumber (number : Int) (active : Nat) (count : Int)
  | noRegion
  | regionIndices (count : Nat)
  -- Fluids
  | fewOilRecords
  | branchCount (expected actual : Nat)
  | notIncreasing (column : Abscissa)
  | oilRecordSize (record size : Nat)
  | defaultedOilRecord (record : Nat)
  | emptyTable
  | waterItems (count : Nat)
  | defaultedWater
  | emptyGasTable
  | gasItems (count : Nat)
  | defaultedGas
  | fewGasRows
  | densityItems
  | missingDensities (phases : List Phase)
  | nonPositiveDensity
  | missingMass (component : Component)
  | divisionByZero
  | unequalColumns
  -- Configuration and constants
  | outOfBounds (field relation limit value : String)
  | missingMasses (components : List Component)
  | nonPositiveMass
  | unknownConstant (name : String)
  -- States
  | saturations (count active : Nat) (water gas oil : String)
  | massFractions (low high : String)
  | stateShape (field : String) (expected actual : List Nat)
  | shapes (left right : List Nat)
  deriving DecidableEq, Repr

namespace Fault

inductive Kind where
  | deckText
  | validation
  | missingKeyword
  | tableCount
  | indexRange
  | value
  | overflow
  | lookup
  | position
  | attribute
  | file
  | encoding
  | division
  deriving DecidableEq, Repr

def kind : Fault → Kind
  | unitSystem _ | dimensionCount _ | defaultedCells _ | unexpectedToken .. | unterminatedRecord _ =>
    .deckText
  | missingFile _ => .file
  | undecodableFile => .encoding
  | missingKeyword .. => .missingKeyword
  | tableCounts .. => .tableCount
  | activeIndex .. | cartesianIndex .. | strayCell .. | beyondValues .. | regionNumber ..
  | regionIndices _ => .indexRange
  | undefinedDimension | negativeCellCount | largeCellCount | direction _ | emptyGasTable
  | unequalColumns | outOfBounds .. | shapes .. => .value
  | infiniteDimension => .overflow
  | noFace .. | missingMass _ => .lookup
  | beyondAxis .. | emptyTable => .position
  | unknownConstant _ => .attribute
  | divisionByZero => .division
  | _ => .validation

/-- The keyword that a deck lacks, where that is the fault. -/
def keyword? : Fault → Option String
  | missingKeyword keyword _ => some keyword
  | _ => none

def sequence (items : List String) : String := String.intercalate ", " items

/-- Numbers in round brackets; a single one is followed by a comma. -/
def tuple (items : List Int) : String :=
  match items with
  | [item] => "(" ++ toString item ++ ",)"
  | _ => "(" ++ sequence (items.map toString) ++ ")"

def shapeText (shape : List Nat) : String := tuple (shape.map Int.ofNat)

/-- Quoted names in square brackets, in alphabetical order. -/
def nameList (names : List String) : String :=
  "[" ++ sequence ((names.mergeSort (fun a b => decide (a ≤ b))).map fun n => "'" ++ n ++ "'") ++ "]"

def message : Fault → String
  | unitSystem keyword =>
    s!"Unit system '{keyword}' is not supported, only METRIC decks can be read"
  | dimensionCount count => s!"DIMENS expects 3 items, got {count}"
  | undefinedDimension => "cannot convert float NaN to integer"
  | infiniteDimension => "cannot convert float infinity to integer"
  | defaultedCells keyword => s!"Keyword '{keyword}' contains defaulted items"
  | unexpectedToken token keyword =>
    s!"Unexpected token '{token}' in a record of keyword '{keyword}'"
  | unterminatedRecord keyword => s!"Record of keyword '{keyword}' is not terminated by '/'"
  | missingFile path => s!"Deck file '{path}' does not exist"
  | undecodableFile => "the deck file is not UTF-8"
  | deckDimensions dimensions =>
    s!"Deck dimensions must be three positive integers, got {tuple dimensions}"
  | cellCount keyword actual expected =>
    s!"Keyword '{keyword}' has {actual} values but the grid has {expected} cartesian cells"
  | missingKeyword keyword reason =>
    let base := s!"The deck is missing the mandatory '{keyword}' keyword"
    if reason = "" then base else base ++ s!" ({reason})"
  | gridDimensions dimensions =>
    s!"Grid dimensions must be three positive integers, got {tuple dimensions}"
  | negativeCellCount => "negative dimensions are not allowed"
  | largeCellCount => "Maximum allowed dimension exceeded"
  | maskSize actual expected =>
    s!"Active mask has {actual} entries but the grid has {expected} cartesian cells"
  | activeIndex index count => s!"Active index {index} outside [0, {count})"
  | cartesianIndex index count => s!"Cartesian index {index} outside [0, {count})"
  | strayCell active index count =>
    s!"Active cell {active} maps to cartesian index {index}, outside [0, {count})"
  | direction number => s!"{number} is not a valid FaceDirection"
  | beyondAxis index axis size =>
    s!"index {index} is out of bounds for axis {axis} with size {size}"
  | beyondValues index count keyword =>
    s!"Cartesian index {index} is outside the {count} values of keyword '{keyword}'"
  | negativePorosity => "Effective porosity must be non-negative for every cell"
  | tensorShape cells actual =>
    s!"Expected cell permeabilities of shape ({cells}, 3, 3), got {shapeText actual}"
  | noFace first second => s!"No interior face between active cells {first} and {second}"
  | equalPhases => "Wetting and non-wetting phases of a two-phase law must differ"
  | sampleCount column expected actual =>
    s!"Saturation and `{column}` arrays must have same length. Got {expected} vs {actual}"
  | fewSamples => "At least 2 points required for interpolation"
  | unorderedSamples => "Wetting phase saturation must be monotonic"
  | oilWaterPhases => "`oil_water_law` must have water as wetting and oil as non-wetting phase"
  | gasOilPhases => "`gas_oil_law` must have oil as wetting and gas as non-wetting phase"
  | tableCounts oilWater gasOil =>
    s!"SWOF defines {oilWater} tables but SGOF defines {gasOil}"
  | tableRows region keyword count =>
    s!"Table {region} of keyword '{keyword}' must hold rows of 4 columns, got {count} values"
  | defaultedTable region keyword =>
    s!"Table {region} of keyword '{keyword}' contains defaulted items"
  | regionNumber number active count =>
    s!"SATNUM value {number} of active cell {active} is outside [1, {count}]"
  | noRegion => "At least one saturation region is required"
  | regionIndices count => s!"Region indices must lie in [0, {count})"
  | fewOilRecords => "Live oil PVT needs at least 2 saturated records to interpolate"
  | branchCount expected actual => s!"Expected {expected} undersaturated branches, got {actual}"
  | notIncreasing column => column.text ++ " must be monotonically increasing"
  | oilRecordSize record size =>
    s!"PVTO record {record} must be `Rs` followed by (p, Bo, mu) rows, got {size} values"
  | defaultedOilRecord record => s!"PVTO record {record} contains defaulted items"
  | emptyTable => "tuple index out of range"
  | waterItems count => s!"PVTW expects at least 4 items (p_ref, Bw, cw, mu_w), got {count}"
  | defaultedWater => "PVTW contains defaulted items"
  | emptyGasTable => "need at least one array to concatenate"
  | gasItems count => s!"PVDG rows must hold 3 items (p, Bg, mu_g), got {count} values"
  | defaultedGas => "PVDG contains defaulted items"
  | fewGasRows => "PVDG needs at least 2 rows to interpolate"
  | densityItems => "DENSITY expects 3 items (oil, water, gas)"
  | missingDensities phases =>
    s!"Surface densities are missing for phases {nameList (phases.map Phase.name)}"
  | nonPositiveDensity => "Surface densities must be strictly positive"
  | missingMass component => s!"<Component.{component.name}: {component.position}>"
  | divisionByZero => "float division by zero"
  | unequalColumns => "x and y arrays must be equal in length along interpolation axis."
  | outOfBounds field relation limit value => s!"'{field}' must be {relation} {limit}: {value}"
  | missingMasses components =>
    s!"`molar_masses` is missing components: {nameList (components.map Component.name)}"
  | nonPositiveMass => "`molar_masses` must be strictly positive"
  | unknownConstant name => s!"'Constants' object has no attribute '{name}'"
  | saturations count active water gas oil =>
    s!"Inconsistent initial saturations in {count} cells, e.g. active cell {active}: " ++
      s!"Sw={water}, Sg={gas}, So={oil}"
  | massFractions low high =>
    "Dissolved gas mass fraction in oil must lie in [0, 1], " ++
      s!"got values in [{low}, {high}]"
  | stateShape field expected actual =>
    s!"`{field}` must have shape {shapeText expected}, got {shapeText actual}"
  | shapes left right =>
    s!"values of shapes {shapeText left} and {shapeText right} cannot be combined"

end Fault
end BlackOil

import BlackOil.Permeability.Face
import BlackOil.Saturation.Region
import BlackOil.Session
import BlackOil.State.Initial

/-!
# Reservoir models

The static description of a black-oil reservoir: its grid, the rock properties of
its cells and faces, its saturation functions, its fluids and its initial state.
It is built in stages, each of which may refuse the deck.
-/
namespace BlackOil
variable {α : Type} [Scalar α]

structure ReservoirModel (α : Type) where
  grid : Topology
  precision : Precision
  porosities : Array α
  cellPermeabilities : Array (Tensor α)
  facePermeabilities : FaceStore α
  saturationFunctions : SaturationFunctions α
  fluidSystem : FluidSystem α
  initialStates : InitialStates α
  config : Config α

namespace ReservoirModel

/-- Builds the stages of a model with the constants and the precision of a session. -/
def assemble (s : Session α) (deck : Deck α) (grid : Topology) (config : Config α) :
    Except Fault (ReservoirModel α) := do
  let precision := s.precision
  let fluidSystem ← FluidSystem.ofDeck s.constants deck (config.molarMasses.map some)
  let porosities ← cellPorosities precision deck grid
  let cells ← BlackOil.cellPermeabilities precision deck grid
  let faces ← BlackOil.facePermeabilities precision deck grid cells
  let saturationFunctions ← SaturationFunctions.ofDeck deck grid
  let states ← BlackOil.initialStates precision s.constants.floor deck grid fluidSystem config
  return {
    grid, precision, porosities
    cellPermeabilities := cells
    facePermeabilities := faces
    saturationFunctions, fluidSystem
    initialStates := states
    config }

/-- The given topology, or else that of the grid of the deck. -/
def chooseGrid (deck : Deck α) : Option Topology → Except Fault Topology
  | some grid => .ok grid
  | none => CartesianGrid.topology <$> CartesianGrid.ofDeck deck

/-- Builds the model of a deck in a scope with the constants of its configuration. -/
def build (s : Session α) (deck : Deck α) (grid : Option Topology) (config : Config α) :
    Except Fault (ReservoirModel α) × Session α :=
  match chooseGrid deck grid with
  | .error fault => (.error fault, s)
  | .ok grid => s.within (.given config.constants) fun s => (assemble s deck grid config, s)

/-- The given configuration, or else that of no settings. -/
def chooseConfig : Option (Config α) → Except Fault (Config α)
  | some config => .ok config
  | none => Config.ofSettings {}

/-- Builds the model of a deck. Without a configuration it takes that of no settings. -/
def buildDefaulted (s : Session α) (deck : Deck α) (grid : Option Topology)
    (config : Option (Config α)) : Except Fault (ReservoirModel α) × Session α :=
  match chooseConfig config with
  | .error fault => (.error fault, s)
  | .ok config => build s deck grid config

/-- Asks the fluids of a model. They keep no constants of their own, so the floor is that of the
session in which they are asked. -/
def ask (m : ReservoirModel α) (s : Session α) (query : FluidQuery α) : Except Fault (Batch α) :=
  m.fluidSystem.answer s.constants.floor query

omit [Scalar α]
variable (m : ReservoirModel α)

def numActive : Nat := m.grid.numActive

/-- The entry of an active cell. -/
def cellEntry {β : Type} (values : Array β) (active : Int) : Except Fault β :=
  match if active < 0 then none else values[active.toNat]? with
  | some b => .ok b
  | none => .error (.activeIndex active m.numActive)

def porosity (active : Int) : Except Fault α := m.cellEntry m.porosities active

def permeability (active : Int) : Except Fault (Tensor α) :=
  m.cellEntry m.cellPermeabilities active

/-- The permeability of the face between two active cells, in either order. -/
def facePermeability (first second : Int) : Except Fault (Tensor α) :=
  Rounded.value <$> m.facePermeabilities.get first second

def law (active : Int) : Except Fault (ThreePhaseLaw α) := m.saturationFunctions.law active

def initialState (active : Int) : Except Fault (FluidState α) := m.initialStates.state active

end ReservoirModel
end BlackOil

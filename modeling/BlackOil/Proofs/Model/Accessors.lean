import BlackOil.Proofs.Model.Ambient
import BlackOil.Proofs.Saturation.Assignment

/-!
# Accessors

The accessors of a model look into arrays that different stages have built. Each of these has
one entry for each active cell, and the deck gives it in the cartesian cell of that active
cell. So the accessors are there for the same active cells and describe the same cells; any
other index is refused by all of them, whether it is negative or too large.
-/
namespace BlackOil
variable {α : Type}

namespace InitialStates

theorem state_eq_error {s : InitialStates α} {active : Int}
    (h : ¬(0 ≤ active ∧ active < s.cells.size)) :
    s.state active = .error (.activeIndex active s.cells.size) := by
  rw [state, getElem?_toNat_of_not h]

end InitialStates

namespace SaturationFunctions

theorem law_eq_error {f : SaturationFunctions α} {active : Int}
    (h : ¬(0 ≤ active ∧ active < f.regions.size)) :
    f.law active = .error (.activeIndex active f.regions.size) := by
  rw [law, region, getElem?_toNat_of_not h]
  rfl

end SaturationFunctions

namespace ReservoirModel

theorem cellEntry_eq_error (m : ReservoirModel α) {β : Type} {values : Array β} {active : Int}
    (h : ¬(0 ≤ active ∧ active < values.size)) :
    m.cellEntry values active = .error (.activeIndex active m.numActive) := by
  rw [cellEntry, getElem?_toNat_of_not h]

variable [Scalar α] {s : Session α} {deck : Deck α} {grid : Option Topology}
  {config : Option (Config α)} {m : ReservoirModel α}

/-- All accessors of a model give for an active cell what the deck says about a cartesian
cell. -/
structure Describes (m : ReservoirModel α) (deck : Deck α) (active : Int) (cell : Nat) :
    Prop where
  cartesianIndex : m.grid.cartesianIndex active = .ok cell
  porosity : ∃ x, deck.porosity? cell = some x ∧
    m.porosity active = .ok (m.precision.cast x)
  permeability : ∃ d, deck.diagonal? cell = some d ∧
    m.permeability active = .ok ((Tensor.diagonal d).map m.precision.cast)
  law : ∃ (laws : List (ThreePhaseLaw α)) (region : Nat) (law : ThreePhaseLaw α),
    saturationLaws deck = .ok laws ∧ deck.region? laws.length cell = some region ∧
      laws[region]? = some law ∧ m.law active = .ok law
  initialState : ∃ composition state, m.fluidSystem.oilGas = .ok composition ∧
    deck.initialState? m.precision m.config.constants.floor m.fluidSystem composition m.config
      cell = some state ∧
    m.initialState active = .ok state

/-- All accessors of a model refuse an index. -/
structure Refuses (m : ReservoirModel α) (active : Int) (fault : Fault) : Prop where
  porosity : m.porosity active = .error fault
  permeability : m.permeability active = .error fault
  law : m.law active = .error fault
  initialState : m.initialState active = .error fault

/-- The arrays of a model hold what the deck gives in the cells of its grid. -/
structure ReadFrom (m : ReservoirModel α) (deck : Deck α) (cells : Array Nat) : Prop where
  cells_eq : m.grid.cells = .ok cells
  porosities : ∃ out, Reads deck.porosity? cells out ∧
    m.porosities = out.map m.precision.cast
  cellPermeabilities : ∃ out, Reads deck.diagonal? cells out ∧
    m.cellPermeabilities = out.map fun d => (Tensor.diagonal d).map m.precision.cast
  saturationFunctions : ∃ laws regions, saturationLaws deck = .ok laws ∧
    Reads (deck.region? laws.length) cells regions ∧
      m.saturationFunctions = ⟨laws.toArray, regions.map Int.toNat⟩
  initialStates : ∃ composition, m.fluidSystem.oilGas = .ok composition ∧
    Reads (deck.initialState? m.precision m.config.constants.floor m.fluidSystem composition
      m.config) cells m.initialStates.cells

/-- A model is read from its deck, whatever configuration it was built with. -/
theorem readFrom_of_buildDefaulted (h : (buildDefaulted s deck grid config).1 = .ok m) :
    ∃ cells, m.ReadFrom deck cells := by
  have hstages := (isAssembled_of_buildDefaulted h).2
  -- each stage asks the grid for its cells, and gets the same ones
  obtain ⟨-, cells, out, hcells, hread, -, hout⟩ := cellPorosities_eq_ok_iff.mp hstages.porosities
  obtain ⟨-, cells', diagonals, hcells', hread', hout'⟩ :=
    cellPermeabilities_eq_ok_iff.mp hstages.cellPermeabilities
  cases hcells.symm.trans hcells'
  obtain ⟨cells', hcells', -, composition, hcomposition, -, hstates⟩ :=
    initialStates_eq_ok_iff.mp hstages.initialStates
  cases hcells.symm.trans hcells'
  refine ⟨cells, ?_⟩
  constructor
  case cells_eq => exact hcells
  case porosities => exact ⟨out, hread, hout⟩
  case cellPermeabilities => exact ⟨diagonals, hread', hout'⟩
  case saturationFunctions =>
    obtain ⟨laws, regions, hlaws, -, hregions, hout⟩ :=
      (SaturationFunctions.ofDeck_eq_ok_iff_of_cells hcells).mp hstages.saturationFunctions
    exact ⟨laws, regions, hlaws, hregions, hout⟩
  case initialStates => exact ⟨composition, hcomposition, hstates⟩

namespace ReadFrom
variable {cells : Array Nat}

/-- The arrays of a model are as long as the list of its active cells. -/
theorem sizes (h : m.ReadFrom deck cells) : m.porosities.size = m.numActive ∧
    m.cellPermeabilities.size = m.numActive ∧
    m.saturationFunctions.regions.size = m.numActive ∧
    m.initialStates.cells.size = m.numActive := by
  have hsize : cells.size = m.numActive := Topology.size_of_cells_eq_ok h.cells_eq
  obtain ⟨porosities, hp, hporosities⟩ := h.porosities
  obtain ⟨diagonals, hd, htensors⟩ := h.cellPermeabilities
  obtain ⟨laws, regions, -, hr, hfunctions⟩ := h.saturationFunctions
  obtain ⟨composition, -, hs⟩ := h.initialStates
  refine ⟨?_, ?_, ?_, hs.size_eq.trans hsize⟩
  · rw [hporosities, Array.size_map, hp.size_eq, hsize]
  · rw [htensors, Array.size_map, hd.size_eq, hsize]
  · rw [hfunctions, Array.size_map, hr.size_eq, hsize]

theorem exists_describes (h : m.ReadFrom deck cells) {active : Int}
    (hactive : 0 ≤ active ∧ active < m.numActive) : ∃ cell : Nat, m.Describes deck active cell := by
  obtain ⟨a, rfl⟩ := Int.eq_ofNat_of_zero_le hactive.1
  have ha : a < cells.size := by
    rw [Topology.size_of_cells_eq_ok h.cells_eq]
    exact Int.ofNat_lt.mp hactive.2
  have hcell := Array.getElem?_eq_getElem ha
  refine ⟨cells[a], ?_⟩
  constructor
  case cartesianIndex => exact Topology.cartesianIndex_of_cells_eq_ok h.cells_eq hcell
  case porosity =>
    obtain ⟨porosities, hreads, hporosities⟩ := h.porosities
    obtain ⟨x, hx, hout⟩ := hreads.exists_entry hcell
    refine ⟨x, hx, cellEntry_eq_ok _ ?_⟩
    rw [hporosities, Array.getElem?_map, hout, Option.map_some]
  case permeability =>
    obtain ⟨diagonals, hreads, htensors⟩ := h.cellPermeabilities
    obtain ⟨d, hd, hout⟩ := hreads.exists_entry hcell
    refine ⟨d, hd, cellEntry_eq_ok _ ?_⟩
    rw [htensors, Array.getElem?_map, hout, Option.map_some]
  case law =>
    obtain ⟨laws, regions, hlaws, hreads, hfunctions⟩ := h.saturationFunctions
    obtain ⟨r, hr, hout⟩ := hreads.exists_entry hcell
    -- a region that the deck gives is one of those that have a law
    have hrange := (Option.filter_eq_some_iff.mp hr).2
    rw [Bool.and_eq_true, decide_eq_true_eq, decide_eq_true_eq] at hrange
    obtain ⟨region, rfl⟩ := Int.eq_ofNat_of_zero_le hrange.1
    have hlaw := List.getElem?_eq_getElem (Int.ofNat_lt.mp hrange.2)
    refine ⟨laws, region, _, hlaws, hr, hlaw, ?_⟩
    have hregion : m.saturationFunctions.regions[a]? = some region := by
      rw [hfunctions, Array.getElem?_map, hout]
      rfl
    refine SaturationFunctions.law_eq_ok hregion ?_
    rw [hfunctions]
    exact List.getElem?_toArray.trans hlaw
  case initialState =>
    obtain ⟨composition, hcomposition, hreads⟩ := h.initialStates
    obtain ⟨state, hstate, hout⟩ := hreads.exists_entry hcell
    exact ⟨composition, state, hcomposition, hstate, InitialStates.state_eq_ok hout⟩

theorem refuses (h : m.ReadFrom deck cells) {active : Int}
    (hactive : ¬(0 ≤ active ∧ active < m.numActive)) :
    m.Refuses active (.activeIndex active m.numActive) := by
  obtain ⟨hporosities, htensors, hregions, hstates⟩ := h.sizes
  constructor
  case porosity => exact m.cellEntry_eq_error (hporosities ▸ hactive)
  case permeability => exact m.cellEntry_eq_error (htensors ▸ hactive)
  case law => exact hregions ▸ SaturationFunctions.law_eq_error (hregions ▸ hactive)
  case initialState => exact hstates ▸ InitialStates.state_eq_error (hstates ▸ hactive)

end ReadFrom

/-- The accessors of a model agree on the active cells that there are. For each of those they
describe its cartesian cell, and for any other index all of them report it out of range. -/
theorem describes_or_refuses (h : (buildDefaulted s deck grid config).1 = .ok m) (active : Int) :
    (0 ≤ active ∧ active < m.numActive → ∃ cell : Nat, m.Describes deck active cell) ∧
      (¬(0 ≤ active ∧ active < m.numActive) →
        ∃ fault : Fault, fault.kind = .indexRange ∧ m.Refuses active fault) := by
  obtain ⟨cells, hread⟩ := readFrom_of_buildDefaulted h
  exact ⟨hread.exists_describes, fun hactive => ⟨_, rfl, hread.refuses hactive⟩⟩

/-- The first cell of the row is there, the index before it is not. -/
theorem describes_or_refuses_row : ∃ m : ReservoirModel Exact,
    (buildDefaulted {} rowDeck none none).1 = .ok m ∧
      (∃ cell : Nat, m.Describes rowDeck 0 cell) ∧
      ∃ fault : Fault, fault.kind = .indexRange ∧ m.Refuses (-1) fault := by
  have hbuilt : (buildDefaulted {} rowDeck none none).1.toOption.map numActive = some 1 := by
    decide +kernel
  obtain ⟨m, hm, hcount⟩ := Option.map_eq_some_iff.mp hbuilt
  have hm := Outcome.toOption_eq_some_iff.mp hm
  refine ⟨m, hm, (describes_or_refuses hm 0).1 ?_, (describes_or_refuses hm (-1)).2 ?_⟩
  · rw [hcount]
    decide
  · omega

end ReservoirModel
end BlackOil

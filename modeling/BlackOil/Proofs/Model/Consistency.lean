import BlackOil.Proofs.Model.Masking
import BlackOil.Proofs.Pvt.Fluids
import BlackOil.Proofs.Saturation.Tables
import BlackOil.Proofs.State.Composition

/-!
# Consistent initial states

Every initial state of a model over the rational numbers is consistent. The settings have
been checked for positive molar masses, the fluid system for positive densities, the cells
for consistent saturations and possible shares of gas; live oil gives positive volume
factors. So the composition of the oil divides by positive numbers only.
-/
namespace BlackOil

/-- The settings of a configuration leave a tolerance that is not negative and no molar mass
that is not positive. -/
theorem Config.ofSettings_eq_ok {α : Type} [Scalar α] {settings : Settings α} {config : Config α}
    (h : ofSettings settings = .ok config) :
    0.0 ≤ config.saturationTolerance ∧ ∀ mass ∈ config.molarMasses.toList, ¬mass ≤ 0.0 := by
  simp only [ofSettings, Outcome.refuse_eq_ok_iff, Outcome.bind_eq_ok_iff, Outcome.pure_eq_ok_iff]
    at h
  obtain ⟨-, htolerance, -, masses, hmasses, rfl⟩ := h
  refine ⟨Classical.not_not.mp htolerance, ?_⟩
  unfold checkMasses at hmasses
  split at hmasses
  · cases hmasses
  · split at hmasses
    · cases hmasses
    · rename_i hpositive
      cases hmasses
      simpa using hpositive

/-- No volume factor in the live oil tables of the deck is zero. -/
def Deck.HasVolumeFactors (deck : Deck Exact) : Prop :=
  ∀ tables ∈ deck.tables.find? "PVTO", ∀ table ∈ tables, ∀ record ∈ table,
    ∀ row ∈ LiveOil.rowsOfThree record.tail, row.2.1 ≠ .value 0

instance (deck : Deck Exact) : Decidable deck.HasVolumeFactors :=
  inferInstanceAs (Decidable (∀ tables ∈ deck.tables.find? "PVTO", ∀ table ∈ tables,
    ∀ record ∈ table, ∀ row ∈ LiveOil.rowsOfThree record.tail, row.2.1 ≠ .value 0))

namespace FluidSystem
variable {deck : Deck Exact} {f : FluidSystem Exact}

theorem find?_of_firstTable_eq_ok {keyword reason : String} {table : Table Exact}
    (h : firstTable deck keyword reason = .ok table) :
    ∃ rest, deck.tables.find? (Text.upper keyword) = some (table :: rest) := by
  obtain ⟨tables, htables, h⟩ := Outcome.bind_eq_ok_iff.mp h
  cases tables with
  | nil => cases h
  | cons first rest =>
    cases h
    exact ⟨rest, (Deck.find?_of_tablesOf_eq_ok htables).1⟩

/-- The live oil of a deck is that of the table, its densities are positive, and its molar
masses are the given ones. -/
theorem ofDeck_eq_ok {constants : Constants Exact} {masses : PerComponent Exact}
    (h : ofDeck constants deck (masses.map some) = .ok f) :
    (∃ table, firstTable deck "PVTO" "live oil PVT" = .ok table ∧
      LiveOil.ofTable table = .ok f.oil) ∧
    (∀ density ∈ f.surfaceDensities.toList, .value 0 < density) ∧
    f.molarMasses = masses.map some :=
  have hparts := isOfDeck_of_ofDeck h
  ⟨hparts.1.oil, hparts.1.surfaceDensities, hparts.2⟩

/-- The composition of oil depends on the surface densities and on the given molar masses. -/
theorem oilGas_eq_ok {masses : PerComponent Exact} (h : f.molarMasses = masses.map some) :
    f.oilGas = .ok ⟨f.surfaceDensities.oil, f.surfaceDensities.gas, masses.oil, masses.gas⟩ := by
  have hmass : ∀ component, f.molarMass component = .ok (masses.get component) := by
    intro component
    rw [molarMass, h, PerComponent.get_map]
  rw [oilGas, hmass, hmass]
  rfl

/-- The composition of oil depends on positive numbers. -/
theorem exists_oilGas {masses : PerComponent Exact}
    (hdensities : ∀ density ∈ f.surfaceDensities.toList, .value 0 < density)
    (hmasses : ∀ mass ∈ masses.toList, .value 0 < mass) (h : f.molarMasses = masses.map some) :
    ∃ m, f.oilGas = .ok m ∧ m.IsPositive := by
  refine ⟨_, oilGas_eq_ok h, ?_⟩
  constructor
  · exact hdensities _ (by simp [PerPhase.toList])
  · exact hdensities _ (by simp [PerPhase.toList])
  · exact hmasses _ (by simp [PerComponent.toList])
  · exact hmasses _ (by simp [PerComponent.toList])

end FluidSystem

namespace ReservoirModel
variable {s : Session Exact} {deck : Deck Exact} {grid : Option Topology} {config : Config Exact}
  {m : ReservoirModel Exact}

/-- A model has the fluid system and the states of its deck, found with the constants of its
configuration. -/
theorem fluids_and_states_of_build (h : (build s deck grid config).1 = .ok m) :
    FluidSystem.ofDeck config.constants deck (config.molarMasses.map some) = .ok m.fluidSystem ∧
      BlackOil.initialStates s.precision config.constants.floor deck m.grid m.fluidSystem config =
        .ok m.initialStates := by
  obtain ⟨-, rfl, hstages⟩ := isAssembled_of_build h
  exact ⟨hstages.fluidSystem, hstages.precision ▸ hstages.initialStates⟩

/-- The live oil of a model is strict. -/
theorem strict_oil_of_build (h : (build s deck grid config).1 = .ok m)
    (hfactors : deck.HasVolumeFactors) : m.fluidSystem.oil.Strict := by
  obtain ⟨⟨table, htable, hoil⟩, -⟩ := FluidSystem.ofDeck_eq_ok (fluids_and_states_of_build h).1
  obtain ⟨rest, hfind⟩ := FluidSystem.find?_of_firstTable_eq_ok htable
  have hkeyword : Text.upper "PVTO" = "PVTO" := by decide
  rw [hkeyword] at hfind
  exact (LiveOil.tabulates_of_ofTable hoil).strict
    (hfactors _ hfind table List.mem_cons_self)

/-- The initial state of every active cell of a model is consistent, and nothing that the
composition of its oil divides by is zero. -/
theorem exists_consistent_initialState (hdeck : deck.IsRational)
    (hfactors : deck.HasVolumeFactors) {settings : Settings Exact}
    (hconfig : Config.ofSettings settings = .ok config)
    (hmasses : ∀ mass ∈ config.molarMasses.toList, mass ≠ .undefined)
    (hfloor : 0.0 < config.constants.floor) (hprecision : s.precision = .double)
    (hbuilt : (build s deck grid config).1 = .ok m) {active : Int}
    (hactive : 0 ≤ active ∧ active < m.numActive) :
    ∃ (cell : Nat) (d : CellData Exact) (composition : OilGas Exact) (state : FluidState Exact),
      m.grid.cartesianIndex active = .ok cell ∧ deck.cellData? cell = some d ∧
      m.fluidSystem.oilGas = .ok composition ∧ m.initialState active = .ok state ∧
      state = d.state config.temperature (composition.moleFraction (d.massFraction composition
        m.fluidSystem config.constants.floor config.capDissolvedGas)) ∧
      state.Consistent config.saturationTolerance ∧
      ∀ divisor ∈ d.divisors composition m.fluidSystem config.constants.floor
        config.capDissolvedGas, .value 0 < divisor := by
  obtain ⟨hfluids, hstates⟩ := fluids_and_states_of_build hbuilt
  obtain ⟨htolerance, hpositive⟩ := Config.ofSettings_eq_ok hconfig
  obtain ⟨-, hdensities, hknown⟩ := FluidSystem.ofDeck_eq_ok hfluids
  obtain ⟨composition, hcomposition, hcompositionPos⟩ := FluidSystem.exists_oilGas hdensities
    (fun mass hmass => Exact.pos_of_not_nonpos (hpositive mass hmass) (hmasses mass hmass)) hknown
  obtain ⟨cell, d, hcell, hd, hconsistent, hpossible, hstate⟩ :=
    exists_state_of_initialStates hcomposition hstates hactive
  have hrational := hdeck.of_cellData? hd
  rw [Exact.zero_eq] at hfloor
  obtain ⟨⟨x, hx, hunit⟩, hdivisors⟩ := CellData.exists_moleFraction hcompositionPos
    (strict_oil_of_build hbuilt hfactors) hrational hfloor hpossible
  refine ⟨cell, d, composition, _, hcell, hd, hcomposition, hstate, ?_, ?_, hdivisors⟩
  · rw [hprecision]
    rfl
  · obtain ⟨-, tolerance, -, hvalue, -⟩ := Exact.le_iff.mp htolerance
    rw [hvalue] at hconsistent ⊢
    rw [hprecision, hx]
    exact CellData.consistent_state hrational hconsistent hunit config.temperature

/-- The cell that the mask of a row of two leaves, with all defaults. -/
theorem exists_consistent_initialState_row : ∃ config m state,
    Config.ofSettings {} = .ok config ∧ (build {} rowDeck none config).1 = .ok m ∧
      m.initialState 0 = .ok state ∧ state.Consistent config.saturationTolerance := by
  have hmodel : ((Config.ofSettings {}) >>= fun config =>
      (build {} rowDeck none config).1).toOption.map numActive = some 1 := by decide +kernel
  have hvalid : ∀ config ∈ (Config.ofSettings (α := Exact) {}).toOption,
      (∀ mass ∈ config.molarMasses.toList, mass ≠ .undefined) ∧ 0.0 < config.constants.floor := by
    decide +kernel
  have hdeck : rowDeck.IsRational := by decide +kernel
  have hfactors : rowDeck.HasVolumeFactors := by decide +kernel
  obtain ⟨m, hm, hcount⟩ := Option.map_eq_some_iff.mp hmodel
  obtain ⟨config, hconfig, hbuilt⟩ := Outcome.bind_eq_ok_iff.mp (Outcome.toOption_eq_some_iff.mp hm)
  obtain ⟨hmasses, hfloor⟩ := hvalid config (Outcome.toOption_eq_some_iff.mpr hconfig)
  have hactive : (0 : Int) ≤ 0 ∧ (0 : Int) < m.numActive := by
    rw [hcount]
    decide
  obtain ⟨-, -, -, state, -, -, -, hstate, -, hconsistent, -⟩ :=
    exists_consistent_initialState hdeck hfactors hconfig hmasses hfloor rfl hbuilt hactive
  exact ⟨config, m, state, hconfig, hbuilt, hstate, hconsistent⟩

end ReservoirModel
end BlackOil

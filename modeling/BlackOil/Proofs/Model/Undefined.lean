import BlackOil.Proofs.Model.Accessors
import BlackOil.Proofs.Model.Consistency
import BlackOil.Proofs.Scalar.Undefined

/-!
# Undefined cell values

The checks of a build ask whether a porosity is negative and whether a saturation is too small
or too large. An undefined value is none of these, so that it passes. In a model the bounds
therefore hold in an active cell exactly if the porosity and the saturations are defined, and
one undefined value of the deck is enough for them not to be.
-/
namespace BlackOil
variable {α : Type} [Scalar α]

/-- The keywords that the porosity of a cell is the product of. -/
def porosityKeywords : List String := ["PORO", "NTG", "MULTPV"]

/-- The keywords that the saturation of a phase depends on. -/
def Phase.saturationKeywords : Phase → List String
  | .water => ["SWAT"]
  | .oil => ["SWAT", "SGAS"]
  | .gas => ["SGAS"]

namespace Deck
variable {deck : Deck α} {keyword : String} {cell : Nat}

/-- The deck has a value for the cell, but an undefined one. -/
def IsUndefinedAt (deck : Deck α) (keyword : String) (cell : Nat) : Prop :=
  ∃ x, deck.value? keyword cell = some x ∧ Scalar.isUndefined x

theorem IsUndefinedAt.of_value? (h : deck.IsUndefinedAt keyword cell) {x : α}
    (hx : deck.value? keyword cell = some x) : Scalar.isUndefined x := by
  obtain ⟨y, hy, hundefined⟩ := h
  cases hx.symm.trans hy
  exact hundefined

/-- A factor that is undefined has not been left out. -/
theorem IsUndefinedAt.of_factor? (h : deck.IsUndefinedAt keyword cell) {x : α}
    (hx : deck.factor? keyword cell = some x) : Scalar.isUndefined x := by
  refine h.of_value? ?_
  obtain ⟨y, hy, -⟩ := h
  obtain ⟨values, hv, -⟩ := Option.bind_eq_some_iff.mp hy
  rw [factor?, hv] at hx
  rw [value?, hv]
  exact hx

variable [Scalar.Lawful α]

theorem isUndefined_of_porosity? {x : α} (hx : deck.porosity? cell = some x)
    (hkeyword : keyword ∈ porosityKeywords) (h : deck.IsUndefinedAt keyword cell) :
    Scalar.isUndefined x := by
  simp only [porosity?, bind, Option.bind_eq_some_iff, pure, Option.some.injEq] at hx
  obtain ⟨poro, hporo, ntg, hntg, factor, hfactor, rfl⟩ := hx
  refine Scalar.Lawful.undefined_mul ?_
  simp only [porosityKeywords, List.mem_cons, List.not_mem_nil, or_false] at hkeyword
  rcases hkeyword with rfl | rfl | rfl
  · exact Or.inl (Scalar.Lawful.undefined_mul (Or.inl (h.of_value? hporo)))
  · exact Or.inl (Scalar.Lawful.undefined_mul (Or.inr (h.of_factor? hntg)))
  · exact Or.inr (h.of_factor? hfactor)

end Deck

namespace CellData
variable {d : CellData α} {tolerance : α}

/-- The saturation of a phase. -/
def saturation (d : CellData α) : Phase → α
  | .water => d.water
  | .oil => d.oil
  | .gas => d.gas

theorem not_lt_of_not_inconsistent (h : ¬d.inconsistent tolerance) (phase : Phase) :
    ¬d.saturation phase < -tolerance ∧ ¬1.0 + tolerance < d.saturation phase := by
  simp only [inconsistent, List.any_cons, List.any_nil, Bool.or_eq_true, decide_eq_true_eq,
    Bool.false_eq_true, or_false, not_or] at h
  cases phase with
  | water => exact h.2.1
  | oil => exact h.1
  | gas => exact h.2.2

variable [Scalar.Lawful α]

/-- The check of the saturations leaves those in range, and those that are undefined. -/
theorem within_iff_of_not_inconsistent (htolerance : 0.0 ≤ tolerance)
    (h : ¬d.inconsistent tolerance) (phase : Phase) :
    (-tolerance ≤ d.saturation phase ∧ d.saturation phase ≤ 1.0 + tolerance) ↔
      Scalar.isUndefined (d.saturation phase) = false := by
  have hdefined := (Scalar.Lawful.defined_of_le htolerance).2
  obtain ⟨hlow, hhigh⟩ := not_lt_of_not_inconsistent h phase
  rw [Scalar.Lawful.le_iff_of_not_lt (Scalar.Lawful.defined_neg hdefined) hlow,
    Scalar.Lawful.le_iff_of_not_gt (Scalar.Lawful.defined_one_add hdefined) hhigh, and_self]

theorem isUndefined_saturation {deck : Deck α} {cell : Nat} (hd : deck.cellData? cell = some d)
    {phase : Phase} {keyword : String} (hkeyword : keyword ∈ phase.saturationKeywords)
    (h : deck.IsUndefinedAt keyword cell) : Scalar.isUndefined (d.saturation phase) := by
  simp only [Deck.cellData?, bind, Option.bind_eq_some_iff, pure, Option.some.injEq] at hd
  obtain ⟨water, hwater, gas, hgas, pressure, -, dissolvedGas, -, rfl⟩ := hd
  cases phase with
  | water =>
    rw [List.mem_singleton.mp hkeyword] at h
    exact h.of_value? hwater
  | oil =>
    refine Scalar.Lawful.undefined_sub ?_
    simp only [Phase.saturationKeywords, List.mem_cons, List.not_mem_nil, or_false] at hkeyword
    rcases hkeyword with rfl | rfl
    · exact Or.inl (Scalar.Lawful.undefined_sub (Or.inr (h.of_value? hwater)))
    · exact Or.inr (h.of_value? hgas)
  | gas =>
    rw [List.mem_singleton.mp hkeyword] at h
    exact h.of_value? hgas

end CellData

namespace ReservoirModel
variable {s : Session α} {deck : Deck α} {grid : Option Topology} {config : Option (Config α)}
  {m : ReservoirModel α}

/-- How far the checks of a build go in an active cell. -/
structure ChecksDefined (m : ReservoirModel α) (deck : Deck α) (active : Int) (cell : Nat)
    (porosity : α) (saturations : PerPhase α) : Prop where
  cartesianIndex : m.grid.cartesianIndex active = .ok cell
  porosity_eq : m.porosity active = .ok porosity
  saturations_eq : FluidState.saturations <$> m.initialState active = .ok saturations
  porosity_iff : 0.0 ≤ porosity ↔ Scalar.isUndefined porosity = false
  saturation_iff : ∀ phase, (-m.config.saturationTolerance ≤ saturations.get phase ∧
    saturations.get phase ≤ 1.0 + m.config.saturationTolerance) ↔
      Scalar.isUndefined (saturations.get phase) = false
  /-- One undefined value makes the porosity undefined. -/
  porosity_undefined : ∀ keyword ∈ porosityKeywords, deck.IsUndefinedAt keyword cell →
    Scalar.isUndefined porosity
  saturation_undefined : ∀ (phase : Phase), ∀ keyword ∈ phase.saturationKeywords,
    deck.IsUndefinedAt keyword cell → Scalar.isUndefined (saturations.get phase)

/-- A model keeps the precision of the session and its configuration, and its porosities have
been checked. -/
theorem parts_of_buildDefaulted (h : (buildDefaulted s deck grid config).1 = .ok m) :
    m.precision = s.precision ∧ chooseConfig config = .ok m.config ∧
      cellPorosities s.precision deck m.grid = .ok m.porosities := by
  obtain ⟨hconfig, hstages⟩ := isAssembled_of_buildDefaulted h
  exact ⟨hstages.precision, hconfig, hstages.precision ▸ hstages.porosities⟩

omit [Scalar α] in
theorem mem_of_cellEntry_eq_ok {β : Type} {values : Array β} {active : Int} {b : β}
    (h : m.cellEntry values active = .ok b) : b ∈ values := by
  unfold cellEntry at h
  split at h
  · rename_i hb
    cases h
    split at hb
    · cases hb
    · exact Array.mem_of_getElem? hb
  · cases h

/-- No porosity of a model is negative. -/
theorem not_neg_of_porosity_eq_ok (hprecision : s.precision = .double)
    (hbuilt : (buildDefaulted s deck grid config).1 = .ok m) {active : Int} {porosity : α}
    (h : m.porosity active = .ok porosity) : ¬porosity < 0.0 := by
  obtain ⟨-, -, hporosities⟩ := parts_of_buildDefaulted hbuilt
  obtain ⟨-, cells, out, -, -, hsign, hout⟩ := cellPorosities_eq_ok_iff.mp hporosities
  have hmem := mem_of_cellEntry_eq_ok h
  rw [hout, hprecision] at hmem
  obtain ⟨x, hx, rfl⟩ := Array.mem_map.mp hmem
  exact hsign x hx

variable [Scalar.Lawful α]

/-- The bounds that a build checks hold in an active cell exactly if what they bound is
defined. -/
theorem checksDefined_of_buildDefaulted
    (hconfig : ∀ c ∈ config, ∃ settings, Config.ofSettings settings = .ok c)
    (hprecision : s.precision = .double)
    (hbuilt : (buildDefaulted s deck grid config).1 = .ok m) {active : Int}
    (hactive : 0 ≤ active ∧ active < m.numActive) :
    ∃ cell porosity saturations, m.ChecksDefined deck active cell porosity saturations := by
  obtain ⟨hkept, hchosen, -⟩ := parts_of_buildDefaulted hbuilt
  have hsettings : ∃ settings, Config.ofSettings settings = .ok m.config := by
    cases config with
    | none => exact ⟨{}, hchosen⟩
    | some c =>
      cases hchosen
      exact hconfig _ rfl
  obtain ⟨settings, hsettings⟩ := hsettings
  have htolerance := (Config.ofSettings_eq_ok hsettings).1
  obtain ⟨cells, hread⟩ := readFrom_of_buildDefaulted hbuilt
  obtain ⟨cell, hdescribes⟩ := hread.exists_describes hactive
  obtain ⟨x, hx, hporosity⟩ := hdescribes.porosity
  obtain ⟨composition, state, -, hstate, hfound⟩ := hdescribes.initialState
  obtain ⟨d, hd, rfl⟩ := Option.map_eq_some_iff.mp hstate
  obtain ⟨hd, hchecked⟩ := Option.filter_eq_some_iff.mp hd
  rw [Bool.and_eq_true, Bool.not_eq_true', ← Bool.not_eq_true] at hchecked
  rw [hkept, hprecision] at hporosity hfound
  refine ⟨cell, x, ⟨d.water, d.oil, d.gas⟩, ?_⟩
  constructor
  case cartesianIndex => exact hdescribes.cartesianIndex
  case porosity_eq => exact hporosity
  case saturations_eq =>
    rw [hfound]
    rfl
  case porosity_iff =>
    exact Scalar.Lawful.le_iff_of_not_lt Scalar.Lawful.defined_zero
      (not_neg_of_porosity_eq_ok hprecision hbuilt hporosity)
  case saturation_iff =>
    intro phase
    have hwithin := CellData.within_iff_of_not_inconsistent htolerance hchecked.1 phase
    cases phase <;> exact hwithin
  case porosity_undefined => exact fun keyword => Deck.isUndefined_of_porosity? hx
  case saturation_undefined =>
    intro phase keyword hkeyword hundefined
    have hsaturation := CellData.isUndefined_saturation hd hkeyword hundefined
    cases phase <;> exact hsaturation

def cellDimensions : Dimensions := ⟨1, 1, 1, Nat.one_pos, Nat.one_pos, Nat.one_pos⟩

/-- A cell with the given porosity and water saturation. -/
def cellDeck (poro swat : Float) : Deck Float where
  arrays := ⟨[("PORO", .real #[poro]), ("PERMX", .real #[1.0]), ("SWAT", .real #[swat]),
    ("SGAS", .real #[0.0]), ("PRESSURE", .real #[1e7]), ("RS", .real #[0.0])], by simp⟩
  tables := ⟨[("SWOF", [[[0.2, 0.0, 1.0, 0.0, 1.0, 1.0, 0.0, 0.0]]]),
    ("SGOF", [[[0.0, 0.0, 1.0, 0.0, 0.8, 1.0, 0.0, 0.0]]]),
    ("PVTO", [[[0.0, 1e5, 1.0, 1e-3], [50.0, 1e7, 1.2, 8e-4]]]),
    ("PVTW", [[[1e5, 1.0, 0.0, 5e-4, 0.0]]]), ("PVDG", [[[1e5, 0.9, 1e-5, 1e7, 0.01, 1.5e-5]]]),
    ("DENSITY", [[[800.0, 1000.0, 1.0]]])], by decide⟩
  dimensions := some cellDimensions
  size_eq := by simp [CellValues.size, cellDimensions, Dimensions.count]

/-- A cell whose porosity is defined and whose water saturation is not. -/
theorem checksDefined_of_buildDefaulted_cell : ∃ (m : ReservoirModel Float) (cell : Nat)
    (porosity : Float) (saturations : PerPhase Float),
    (buildDefaulted {} (cellDeck 0.25 Binary64.notANumber) none none).1 = .ok m ∧
      m.ChecksDefined (cellDeck 0.25 Binary64.notANumber) 0 cell porosity saturations := by
  have hbuilt : (buildDefaulted {} (cellDeck 0.25 Binary64.notANumber) none none).1.toOption.map
      numActive = some 1 := by decide +kernel
  obtain ⟨m, hm, hcount⟩ := Option.map_eq_some_iff.mp hbuilt
  have hm := Outcome.toOption_eq_some_iff.mp hm
  have hactive : (0 : Int) ≤ 0 ∧ (0 : Int) < m.numActive := by
    rw [hcount]
    decide
  obtain ⟨cell, porosity, saturations, h⟩ :=
    checksDefined_of_buildDefaulted (by simp) rfl hm hactive
  exact ⟨m, cell, porosity, saturations, hm, h⟩

/-- A build may succeed with a porosity that is not a number. -/
theorem not_forall_nonneg_porosity : ¬∀ (s : Session Float) (deck : Deck Float)
    (grid : Option Topology) (config : Option (Config Float)) (m : ReservoirModel Float)
    (active : Int), (∀ c ∈ config, ∃ settings, Config.ofSettings settings = .ok c) →
      s.precision = .double → (buildDefaulted s deck grid config).1 = .ok m →
      0 ≤ active ∧ active < m.numActive → ∃ porosity state, m.porosity active = .ok porosity ∧
        m.initialState active = .ok state ∧ 0.0 ≤ porosity ∧
        ∀ phase, -m.config.saturationTolerance ≤ state.saturations.get phase ∧
          state.saturations.get phase ≤ 1.0 + m.config.saturationTolerance := by
  intro h
  have hbuilt : (buildDefaulted {} (cellDeck Binary64.notANumber 0.25) none none).1.toOption.map
      (fun m => (m.numActive, m.porosity 0)) = some (1, .ok Binary64.notANumber) := by
    decide +kernel
  obtain ⟨m, hm, hvalues⟩ := Option.map_eq_some_iff.mp hbuilt
  obtain ⟨hcount, hporosity⟩ := Prod.mk.inj hvalues
  have hactive : (0 : Int) ≤ 0 ∧ (0 : Int) < m.numActive := by
    rw [hcount]
    decide
  obtain ⟨porosity, state, hp, -, hnonneg, -⟩ :=
    h {} _ none none m 0 (by simp) rfl (Outcome.toOption_eq_some_iff.mp hm) hactive
  rw [hporosity] at hp
  cases hp
  exact absurd hnonneg (by decide +kernel)

end ReservoirModel
end BlackOil

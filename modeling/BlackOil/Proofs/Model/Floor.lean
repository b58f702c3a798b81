import BlackOil.Proofs.Model.Ambient
import BlackOil.Proofs.Batch
import BlackOil.Proofs.Scalar.Undefined

/-!
# Fluids asked after the build

A model keeps the configuration that it was built with, and its fluids keep their tables,
their densities and their molar masses. The floor of volume factors and viscosities they do not
keep: it is read whenever they are asked, from the constants that are current then. So two
sessions get one answer exactly if their floors are the same or show in none of the values that
they bound. The dissolved gas of saturated oil and the viscosity of water have no floor.
Densities are the same where the volume factors are, but being quotients perhaps elsewhere too.
-/
namespace BlackOil
variable {α : Type}

/-- Densities are made of volume factors. -/
def FluidQuery.IsDensity : FluidQuery α → Prop
  | .density .. => True
  | _ => False

variable [Scalar α]

namespace Scalar

/-- A floor does not show in a value that it does not change. -/
def Clears (floor x : α) : Prop := floor ≤ x ∨ isUndefined x

theorem maximum_of_clears {floor x : α} (h : Clears floor x) : maximum x floor = x := if_pos h

theorem maximum_of_not_clears {floor x : α} (h : ¬Clears floor x) : maximum x floor = floor :=
  if_neg h

variable [Lawful α] [Std.Irrefl (α := α) (· < ·)]

theorem clears_self (x : α) : Clears x x := by
  by_cases hx : isUndefined x
  · exact .inr hx
  · have hx := Bool.not_eq_true _ ▸ hx
    exact .inl ((Lawful.lt_or_le hx hx).resolve_left (Std.Irrefl.irrefl x))

theorem maximum_ne_maximum {floor floor' x : α} (h : Clears floor x) (h' : ¬Clears floor' x) :
    maximum x floor ≠ maximum x floor' := by
  rw [maximum_of_clears h, maximum_of_not_clears h']
  rintro rfl
  exact h' (clears_self x)

/-- Two floors have the same effect on a value if they are the same or have none. -/
theorem maximum_eq_maximum_iff {floor floor' x : α} :
    maximum x floor = maximum x floor' ↔ floor = floor' ∨ Clears floor x ∧ Clears floor' x := by
  constructor
  · intro heq
    by_cases h : Clears floor x <;> by_cases h' : Clears floor' x
    · exact .inr ⟨h, h'⟩
    · exact absurd heq (maximum_ne_maximum h h')
    · exact absurd heq.symm (maximum_ne_maximum h' h)
    · rw [maximum_of_not_clears h, maximum_of_not_clears h'] at heq
      exact .inl heq
  · rintro (rfl | ⟨h, h'⟩)
    · rfl
    · rw [maximum_of_clears h, maximum_of_clears h']

theorem forall_maximum_eq_iff {floor floor' : α} {values : List α} :
    (∀ x ∈ values, maximum x floor = maximum x floor') ↔
      floor = floor' ∨ ∀ x ∈ values, Clears floor x ∧ Clears floor' x := by
  simp only [maximum_eq_maximum_iff]
  by_cases h : floor = floor' <;> simp [h]

end Scalar

namespace LiveOil
variable (t : LiveOil α)

/-- The volume factors of several cells before the floor bounds them. -/
def unclampedVolumeFactors (pressures dissolvedGas : List α) : Except Fault (List α) := do
  let saturated := (t.curve OilRecord.bubblePoint OilRecord.volumeFactor).extendedAll pressures
  let mask := t.undersaturated pressures dissolvedGas
  if mask.any id then
    let products ← t.undersaturatedProducts (Batch.compress mask pressures)
      (Batch.compress mask dissolvedGas)
    return Batch.scatter mask saturated products
  else return saturated

/-- Saturated cells and undersaturated ones are bounded by the same floor. -/
theorem volumeFactors_eq_map (floor : α) (pressures dissolvedGas : List α) :
    t.volumeFactors floor pressures dissolvedGas =
      List.map (Scalar.maximum · floor) <$> t.unclampedVolumeFactors pressures dissolvedGas := by
  unfold volumeFactors unclampedVolumeFactors
  dsimp only
  split
  · cases t.undersaturatedProducts _ _ with
    | error fault => rfl
    | ok products => exact congrArg Except.ok (Batch.map_scatter _ _ _ _).symm
  · rfl

end LiveOil

namespace FluidSystem
variable (f : FluidSystem α)

/-- The volume factors of a phase before the floor bounds them. -/
def unclampedVolumeFactors (phase : Phase) (pressure : Batch α) (gas : Option (Batch α)) :
    Except Fault (Batch α) :=
  match phase, gas with
  | .oil, some gas => do
    let pairs ← Batch.combine Prod.mk pressure gas
    let values ← f.oil.unclampedVolumeFactors (pairs.values.map Prod.fst)
      (pairs.values.map Prod.snd)
    return ⟨pairs.shape, values⟩
  | .oil, none =>
    .ok (pressure.mapAll (f.oil.curve OilRecord.bubblePoint OilRecord.volumeFactor).extendedAll)
  | .water, _ => .ok (pressure.map fun p => f.water.referenceVolumeFactor /
      Water.expansion (f.water.compressibility * (p - f.water.referencePressure)))
  | .gas, _ => .ok (pressure.mapAll (f.gas.curve GasRow.volumeFactor).extendedAll)

theorem volumeFactorBatch_eq_map (floor : α) (phase : Phase) (pressure : Batch α)
    (gas : Option (Batch α)) : f.volumeFactorBatch floor phase pressure gas =
      Batch.map (Scalar.maximum · floor) <$> f.unclampedVolumeFactors phase pressure gas := by
  cases phase with
  | oil =>
    cases gas with
    | none => rfl
    | some gas =>
      simp only [volumeFactorBatch, LiveOil.volumeFactorBatch, unclampedVolumeFactors,
        LiveOil.volumeFactors_eq_map]
      cases Batch.combine Prod.mk pressure gas with
      | error fault => rfl
      | ok pairs =>
        simp only [Outcome.ok_bind]
        cases f.oil.unclampedVolumeFactors _ _ <;> rfl
  | water =>
    have hmap : ∀ g : α → α, pressure.map (fun p => Scalar.maximum (g p) floor) =
        (pressure.map g).map (Scalar.maximum · floor) := by
      intro g
      simp [Batch.map, Function.comp_def]
    exact congrArg Except.ok (hmap _)
  | gas => rfl

/-- The values that the floor bounds when a question is answered. -/
def clampedValues : FluidQuery α → List α
  | .volumeFactor phase pressure gas | .density phase pressure gas =>
    match f.unclampedVolumeFactors phase pressure gas with
    | .ok factors => factors.values
    | .error _ => []
  | .viscosity .oil pressure =>
    (f.oil.curve OilRecord.bubblePoint OilRecord.viscosity).extendedAll pressure.values
  | .viscosity .water _ => []
  | .viscosity .gas pressure => (f.gas.curve GasRow.viscosity).extendedAll pressure.values
  | .saturatedGas _ => []

/-- Two floors do not show in an answer: they are the same, or change none of the values that
they bound. -/
def Indifferent (floor floor' : α) (query : FluidQuery α) : Prop :=
  floor = floor' ∨
    ∀ x ∈ f.clampedValues query, Scalar.Clears floor x ∧ Scalar.Clears floor' x

variable [Scalar.Lawful α] [Std.Irrefl (α := α) (· < ·)] {f} {floor floor' : α}

theorem volumeFactorBatch_eq_iff {phase : Phase} {pressure : Batch α} {gas : Option (Batch α)} :
    f.volumeFactorBatch floor phase pressure gas =
        f.volumeFactorBatch floor' phase pressure gas ↔
      f.Indifferent floor floor' (.volumeFactor phase pressure gas) := by
  rw [volumeFactorBatch_eq_map, volumeFactorBatch_eq_map, Indifferent, clampedValues,
    ← Scalar.forall_maximum_eq_iff]
  cases f.unclampedVolumeFactors phase pressure gas with
  | error fault => exact iff_of_true rfl nofun
  | ok factors => exact Iff.trans ⟨Except.ok.inj, congrArg Except.ok⟩ Batch.map_eq_map_iff

theorem viscosity_eq_iff {phase : Phase} {pressure : Batch α} :
    pressure.mapAll (f.viscosities floor phase) = pressure.mapAll (f.viscosities floor' phase) ↔
      f.Indifferent floor floor' (.viscosity phase pressure) := by
  have hvalues : pressure.mapAll (f.viscosities floor phase) =
      pressure.mapAll (f.viscosities floor' phase) ↔
        f.viscosities floor phase pressure.values = f.viscosities floor' phase pressure.values := by
    simp [Batch.mapAll]
  rw [hvalues, Indifferent, ← Scalar.forall_maximum_eq_iff]
  cases phase with
  | oil => exact List.map_inj_left
  | water => exact iff_of_true rfl nofun
  | gas => exact List.map_inj_left

theorem densityBatch_eq {phase : Phase} {pressure : Batch α} {gas : Option (Batch α)}
    (h : f.Indifferent floor floor' (.volumeFactor phase pressure gas)) :
    f.densityBatch floor phase pressure gas = f.densityBatch floor' phase pressure gas := by
  rw [densityBatch, densityBatch, volumeFactorBatch_eq_iff.mpr h]

end FluidSystem

namespace ReservoirModel
variable {deck : Deck α} {grid : Option Topology} {config : Option (Config α)}
  {m : ReservoirModel α}

/-- The answer under the constants of the configuration of a model. -/
def ownAnswer (m : ReservoirModel α) (query : FluidQuery α) : Except Fault (Batch α) :=
  m.ask (.bare m.config.constants m.precision) query

/-- What a model answers in two sessions. -/
structure FollowsFloor (m : ReservoirModel α) : Prop where
  ask_eq : ∀ (s s' : Session α) (query : FluidQuery α),
    m.fluidSystem.Indifferent s.constants.floor s'.constants.floor query →
      m.ask s query = m.ask s' query
  ask_eq_iff : ∀ (s s' : Session α) (query : FluidQuery α),
    ¬query.IsDensity → (m.ask s query = m.ask s' query ↔
      m.fluidSystem.Indifferent s.constants.floor s'.constants.floor query)
  saturatedGas : ∀ (s s' : Session α) (pressure : Batch α),
    m.ask s (.saturatedGas pressure) = m.ask s' (.saturatedGas pressure)
  waterViscosity : ∀ (s s' : Session α) (pressure : Batch α),
    m.ask s (.viscosity .water pressure) = m.ask s' (.viscosity .water pressure)

variable [Scalar.Lawful α] [Std.Irrefl (α := α) (· < ·)]

theorem followsFloor (m : ReservoirModel α) : m.FollowsFloor := by
  have hiff : ∀ (s s' : Session α) (query : FluidQuery α),
      ¬query.IsDensity → (m.ask s query = m.ask s' query ↔
        m.fluidSystem.Indifferent s.constants.floor s'.constants.floor query) := by
    intro s s' query hquery
    cases query with
    | volumeFactor phase pressure gas => exact FluidSystem.volumeFactorBatch_eq_iff
    | density phase pressure gas => exact absurd trivial hquery
    | viscosity phase pressure =>
      exact Iff.trans ⟨Except.ok.inj, congrArg Except.ok⟩ FluidSystem.viscosity_eq_iff
    | saturatedGas pressure => exact iff_of_true rfl (.inr nofun)
  refine ⟨fun s s' query h => ?_, hiff, fun _ _ _ => rfl, fun _ _ _ => rfl⟩
  cases query with
  | volumeFactor phase pressure gas => exact (hiff s s' _ id).mpr h
  | density phase pressure gas => exact FluidSystem.densityBatch_eq h
  | viscosity phase pressure => exact (hiff s s' _ id).mpr h
  | saturatedGas pressure => rfl

/-- A model that is built gives in a session what it gives under the constants of its
configuration if neither floor shows in the answer; except for densities, only then. -/
theorem followsFloor_of_buildDefaulted {s : Session α}
    (h : (buildDefaulted s deck grid config).1 = .ok m) :
    chooseConfig config = .ok m.config ∧ m.FollowsFloor ∧
      ∀ (s' : Session α) (query : FluidQuery α),
        m.fluidSystem.Indifferent s'.constants.floor m.config.constants.floor query →
          m.ask s' query = m.ownAnswer query :=
  ⟨(isAssembled_of_buildDefaulted h).1, m.followsFloor,
    fun s' query hfloor => m.followsFloor.ask_eq s' (.bare m.config.constants m.precision) query
      hfloor⟩

/-- A configuration whose floor is higher than that of the default constants. -/
def raisedConfig : Config Exact :=
  { rowConfig with
    constants :=
      ({} : Constants Exact).assign Quantity.volumeFactorFloor.name { value := 1e-3 } }

/-- The volume factor of gas at a pressure where the table has run out. -/
def thinGas : FluidQuery Exact := .volumeFactor .gas (.scalar 2e7) none

/-- Outside the build the floor is not that of the configuration any more. -/
theorem exists_ask_thinGas_ne : ∃ m,
    (buildDefaulted {} rowDeck none (some raisedConfig)).1 = .ok m ∧
      m.ask {} thinGas = .ok (.scalar 1e-12) ∧ m.ownAnswer thinGas = .ok (.scalar 1e-3) ∧
      m.ask {} thinGas ≠ m.ownAnswer thinGas := by
  have hanswers : (buildDefaulted {} rowDeck none (some raisedConfig)).1.toOption.any fun m =>
      (m.ask {} thinGas).toOption = some (.scalar 1e-12) &&
        (m.ownAnswer thinGas).toOption = some (.scalar 1e-3) := by decide +kernel
  obtain ⟨m, hm, hanswers⟩ := (Option.any_eq_true _ _).mp hanswers
  rw [Bool.and_eq_true_iff, decide_eq_true_iff, decide_eq_true_iff] at hanswers
  have hask := Outcome.toOption_eq_some_iff.mp hanswers.1
  have hown := Outcome.toOption_eq_some_iff.mp hanswers.2
  refine ⟨m, Outcome.toOption_eq_some_iff.mp hm, hask, hown, ?_⟩
  rw [hask, hown]
  intro heq
  have hne : (Batch.scalar 1e-12 : Batch Exact) ≠ .scalar 1e-3 := by decide +kernel
  exact hne (Except.ok.inj heq)

theorem followsFloor_of_buildDefaulted_raised : ∃ m,
    (buildDefaulted {} rowDeck none (some raisedConfig)).1 = .ok m ∧
      m.config = raisedConfig ∧ m.FollowsFloor ∧
      ¬m.fluidSystem.Indifferent ({} : Session Exact).constants.floor
        m.config.constants.floor thinGas ∧
      m.ask {} (.saturatedGas (.scalar 2e7)) = m.ownAnswer (.saturatedGas (.scalar 2e7)) := by
  obtain ⟨m, hbuilt, -, -, hne⟩ := exists_ask_thinGas_ne
  obtain ⟨hconfig, hfollows, hsame⟩ := followsFloor_of_buildDefaulted hbuilt
  exact ⟨m, hbuilt, (Except.ok.inj hconfig).symm, hfollows,
    fun hindifferent => hne (hsame {} thinGas hindifferent), hsame {} _ (.inr nofun)⟩

/-- A built model does not give everywhere what it gives under the constants of its
configuration. -/
theorem not_forall_ask_eq : ¬∀ (s : Session Exact) (deck : Deck Exact) (grid : Option Topology)
    (config : Option (Config Exact)) (m : ReservoirModel Exact),
    (buildDefaulted s deck grid config).1 = .ok m →
      ∀ (s₁ s₂ : Session Exact) (query : FluidQuery Exact),
        m.ask s₁ query = m.ask s₂ query ∧ m.ask s₁ query = m.ownAnswer query := by
  intro h
  obtain ⟨m, hbuilt, -, -, hne⟩ := exists_ask_thinGas_ne
  exact hne (h {} rowDeck none (some raisedConfig) m hbuilt {} {} thinGas).2

end ReservoirModel
end BlackOil

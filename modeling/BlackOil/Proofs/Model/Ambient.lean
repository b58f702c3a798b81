import BlackOil.Proofs.Model.Masking

/-!
# Ambient constants

A model is built in a scope with the constants of its configuration, and the configuration
takes what it is not given from its own constants. So of the session around it a build reads
the precision and nothing else, and whichever stage refuses the deck, the session is left as it
was found.
-/
namespace BlackOil
variable {α : Type}

namespace Session
variable {β : Type}

/-- A session outside every scope. -/
def bare (constants : Constants α) (precision : Precision) : Session α :=
  { base := constants, precision }

/-- A scope shows a computation that keeps its session no trace of itself afterwards. -/
theorem within_keeping (s : Session α) (scope : Scope α) (outcome : Session α → β) :
    s.within scope (fun inside => (outcome inside, inside)) = (outcome (s.enter scope), s) := rfl

end Session

namespace ReservoirModel
variable [Scalar α] {s s' : Session α} {deck : Deck α} {grid : Option Topology}

/-- The stages read the current constants and the precision. -/
theorem assemble_congr (hconstants : s.constants = s'.constants)
    (hprecision : s.precision = s'.precision) (deck : Deck α) (t : Topology)
    (config : Config α) : assemble s deck t config = assemble s' deck t config := by
  rw [assemble, assemble, hconstants, hprecision]

theorem build_eq (s : Session α) (deck : Deck α) (grid : Option Topology) (config : Config α) :
    build s deck grid config = (do
      let t ← chooseGrid deck grid
      assemble (.bare config.constants s.precision) deck t config, s) := by
  unfold build
  cases chooseGrid deck grid with
  | error fault => rfl
  | ok t =>
    have hassemble : assemble (s.enter (.given config.constants)) deck t config =
        assemble (.bare config.constants s.precision) deck t config :=
      assemble_congr rfl rfl deck t config
    exact (s.within_keeping _ _).trans (congrArg (·, s) hassemble)

/-- What a build gives in a precision. -/
def built (precision : Precision) (deck : Deck α) (grid : Option Topology)
    (config : Option (Config α)) : Except Fault (ReservoirModel α) := do
  let config ← chooseConfig config
  let t ← chooseGrid deck grid
  assemble (.bare config.constants precision) deck t config

theorem buildDefaulted_eq (s : Session α) (deck : Deck α) (grid : Option Topology)
    (config : Option (Config α)) :
    buildDefaulted s deck grid config = (built s.precision deck grid config, s) := by
  unfold buildDefaulted built
  cases chooseConfig config with
  | error fault => rfl
  | ok config => exact build_eq s deck grid config

/-- A model keeps the configuration that it was built with, and its stages have been built with
the constants of that. -/
theorem isAssembled_of_buildDefaulted {config : Option (Config α)} {m : ReservoirModel α}
    (h : (buildDefaulted s deck grid config).1 = .ok m) : chooseConfig config = .ok m.config ∧
      m.IsAssembled (.bare m.config.constants s.precision) deck := by
  simp only [buildDefaulted_eq, built, Outcome.bind_eq_ok_iff] at h
  obtain ⟨_, hconfig, _, -, h⟩ := h
  obtain ⟨-, rfl, hstages⟩ := isAssembled_of_assemble h
  exact ⟨hconfig, hstages⟩

/-- In one precision a build has the same outcome under any constants, and whatever the outcome
it leaves the session as it was. -/
theorem buildDefaulted_of_precision_eq (h : s.precision = s'.precision) (deck : Deck α)
    (grid : Option Topology) (config : Option (Config α)) :
    (buildDefaulted s deck grid config).1 = (buildDefaulted s' deck grid config).1 ∧
      (buildDefaulted s deck grid config).2 = s ∧
      (buildDefaulted s' deck grid config).2 = s' := by
  rw [buildDefaulted_eq, buildDefaulted_eq, h]
  exact ⟨rfl, rfl, rfl⟩

/-- Constants whose floor is above every volume factor, and other molar masses. -/
def strangeConstants : Constants Exact :=
  (({} : Constants Exact).assign Quantity.volumeFactorFloor.name { value := 7.0 }).assign
    Quantity.gasMolarMass.name { value := 1.0 }

theorem buildDefaulted_of_precision_eq_strange : ∃ m,
    (buildDefaulted (.bare strangeConstants .double) rowDeck none none).1 = .ok m ∧
      (buildDefaulted {} rowDeck none none).1 = .ok m ∧
      (buildDefaulted (.bare strangeConstants .double) rowDeck none none).2.constants.floor =
        7.0 := by
  have hbuilt : (buildDefaulted {} rowDeck none none).1.toOption.isSome := by decide +kernel
  obtain ⟨m, hm⟩ := Outcome.exists_ok_of_isSome hbuilt
  have hprecision : (Session.bare strangeConstants .double).precision =
      ({} : Session Exact).precision := rfl
  obtain ⟨hsame, hkept, -⟩ := buildDefaulted_of_precision_eq hprecision rowDeck none none
  refine ⟨m, hsame.trans hm, hm, ?_⟩
  rw [hkept]
  decide +kernel

end ReservoirModel
end BlackOil

import BlackOil.Batch
import BlackOil.Curve

/-!
# Two-phase laws

Relative permeabilities of two phases and their capillary pressure, sampled
against the saturation of the wetting phase, linear between the samples and held
constant beyond them. Samples with falling saturations are turned round, so a
law stores saturations that do not fall.
-/
namespace BlackOil
variable {α : Type} [Scalar α]

structure Sample (α : Type) where
  saturation : α
  wetting : α
  nonWetting : α
  /-- The pressure of the non-wetting phase less that of the wetting phase. -/
  capillary : α
  deriving DecidableEq, Repr

/-- Relative permeabilities and capillary pressures at one state. -/
structure Evaluation (β : Type) where
  kr : PerPhase β
  oilWater : β
  gasOil : β
  deriving Repr

structure TwoPhaseLaw (α : Type) where
  wetting : Phase
  nonWetting : Phase
  first : Sample α
  rest : List (Sample α)

namespace TwoPhaseLaw

omit [Scalar α] in
def samples (law : TwoPhaseLaw α) : List (Sample α) := law.first :: law.rest

/-- Samples in the order of saturations that do not fall, if they can be put so. -/
def ordered? (samples : List (Sample α)) : Option (List (Sample α)) :=
  let steps := Scalar.steps (samples.map Sample.saturation)
  if steps.all (· ≤ 0.0) && steps.any (· < 0.0) then some samples.reverse
  else if steps.all (0.0 ≤ ·) then some samples
  else none

/-- The law of two phases through at least two samples. -/
def ofSamples (wetting nonWetting : Phase) (samples : List (Sample α)) :
    Except Fault (TwoPhaseLaw α) :=
  if wetting = nonWetting then .error .equalPhases
  else if samples.length < 2 then .error .fewSamples
  else match ordered? samples with
    | some (first :: rest) => .ok ⟨wetting, nonWetting, first, rest⟩
    | _ => .error .unorderedSamples

/-- The law of two phases through samples given by columns of one length. -/
def ofColumns (wetting nonWetting : Phase) (saturation krWetting krNonWetting capillary : List α) :
    Except Fault (TwoPhaseLaw α) :=
  if wetting = nonWetting then .error .equalPhases
  else
    let columns := [("wetting_phase_relative_permeability", krWetting),
      ("non_wetting_phase_relative_permeability", krNonWetting), ("capillary_pressure", capillary)]
    match columns.find? (·.2.length ≠ saturation.length) with
    | some (name, column) => .error (.sampleCount name saturation.length column.length)
    | none =>
      ofSamples wetting nonWetting <|
        ((saturation.zip krWetting).zip (krNonWetting.zip capillary)).map
          fun ((s, kw), (kn, pc)) => ⟨s, kw, kn, pc⟩

variable (law : TwoPhaseLaw α)

omit [Scalar α] in
/-- The curve of one of the sampled quantities. -/
def curve (quantity : Sample α → α) : Curve α :=
  let knot (s : Sample α) : Knot α := ⟨s.saturation, quantity s⟩
  ⟨knot law.first, law.rest.map knot⟩

omit [Scalar α] in
/-- The lowest sampled saturation. -/
def leastSaturation : α := law.first.saturation

def krWetting (saturation : α) : α := (law.curve Sample.wetting).held saturation

def krNonWetting (saturation : α) : α := (law.curve Sample.nonWetting).held saturation

def capillaryPressure (saturation : α) : α := (law.curve Sample.capillary).held saturation

omit [Scalar α] in
/-- Whether the law is about gas and another phase. -/
def hasGas : Bool := law.wetting == .gas || law.nonWetting == .gas

/-- All values at a saturation of the wetting phase. Those of the third phase
and of the other pair of phases are zero. -/
def evaluate (saturation : α) : Evaluation α :=
  let pc := law.capillaryPressure saturation
  { kr := ((PerPhase.mk 0.0 0.0 0.0).set law.wetting (law.krWetting saturation)).set
      law.nonWetting (law.krNonWetting saturation)
    oilWater := if law.hasGas then 0.0 else pc
    gasOil := if law.hasGas then pc else 0.0 }

/-- The values for a batch of saturations, entry by entry. -/
def evaluateBatch (saturations : PerPhase (Batch α)) : Evaluation (Batch α) :=
  let values := (saturations.get law.wetting).map law.evaluate
  { kr :=
      ⟨values.map (·.kr.water), values.map (·.kr.oil), values.map (·.kr.gas)⟩
    oilWater := values.map (·.oilWater)
    gasOil := values.map (·.gasOil) }

end TwoPhaseLaw
end BlackOil

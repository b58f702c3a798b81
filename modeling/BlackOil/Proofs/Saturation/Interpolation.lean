import BlackOil.Proofs.Saturation.Columns

/-!
# Interpolated columns

Between its samples a two-phase law follows straight lines, and beyond them it keeps the first
or the last value. So a quantity whose column never falls never falls with the saturation, and
one whose column never rises never rises, also where a saturation has been sampled more than
once. There the law jumps to the last of the samples.
-/
namespace BlackOil

theorem Exact.compare_flip_iff {x y : Exact} :
    Exact.Compare (fun a b => b ≤ a) x y ↔ y ≤ x := by
  cases x <;> cases y <;> exact Iff.rfl

namespace TwoPhaseLaw
variable {law : TwoPhaseLaw Exact} {samples : List (Sample Exact)}
  {quantity : Sample Exact → Exact}

/-- The sample with the greatest saturation that comes last. -/
def last (law : TwoPhaseLaw Exact) : Sample Exact := law.rest.getLastD law.first

theorem last_curve (law : TwoPhaseLaw Exact) (quantity : Sample Exact → Exact) :
    (law.curve quantity).last = ⟨law.last.saturation, quantity law.last⟩ :=
  List.getLastD_map

/-- A quantity of the law against the saturation, drawn through the column of its samples. -/
structure Interpolates (law : TwoPhaseLaw Exact) (read : Exact → Exact)
    (quantity : Sample Exact → Exact) : Prop where
  nondecreasing : (law.samples.Pairwise fun s t => quantity s ≤ quantity t) →
    ∀ x x' : Rat, x ≤ x' → read (.value x) ≤ read (.value x')
  nonincreasing : (law.samples.Pairwise fun s t => quantity t ≤ quantity s) →
    ∀ x x' : Rat, x ≤ x' → read (.value x') ≤ read (.value x)
  below : ∀ x : Rat, .value x < law.first.saturation → read (.value x) = quantity law.first
  above : ∀ x : Rat, law.last.saturation < .value x → read (.value x) = quantity law.last
  /-- Of the samples at one saturation the last one counts. -/
  stored : ∀ before s after, law.samples = before ++ s :: after →
    (∀ t ∈ after, t.saturation ≠ s.saturation) → read s.saturation = quantity s

namespace Holds

theorem interpolates (h : law.Holds samples) (hq : IsQuantity quantity) :
    law.Interpolates (law.curve quantity).held quantity := by
  have hcurve := h.ordered_curve hq
  constructor
  case nondecreasing =>
    intro hcolumn x x' hle
    have hvalues : (law.curve quantity).knots.Pairwise fun p q => p.y ≤ q.y := by
      rwa [knots_curve, List.pairwise_map]
    exact hcurve.held_along Curve.alongLines_le hvalues hle
  case nonincreasing =>
    intro hcolumn x x' hle
    have hvalues : (law.curve quantity).knots.Pairwise fun p q =>
        Exact.Compare (fun a b => b ≤ a) p.y q.y := by
      simp only [Exact.compare_flip_iff]
      rwa [knots_curve, List.pairwise_map]
    exact Exact.compare_flip_iff.mp (hcurve.held_along Curve.alongLines_ge hvalues hle)
  case below =>
    intro x hx
    rw [hcurve.held_value]
    exact if_pos hx
  case above =>
    intro x hx
    have hlast := law.last_curve quantity
    rw [Curve.held, Exact.isUndefined_value, if_neg Bool.false_ne_true, hlast, if_pos hx]
  case stored => exact fun before s after hsplit hlast => h.held_of_split hq hsplit hlast

end Holds
end TwoPhaseLaw

namespace SampleColumns
variable {c : SampleColumns} {wetting nonWetting : Phase} {law : TwoPhaseLaw Exact}

/-- The quantities are sampled as rational numbers. -/
structure IsRational (c : SampleColumns) : Prop where
  krWetting : ∀ y ∈ c.krWetting, ∃ q, y = .value q
  krNonWetting : ∀ y ∈ c.krNonWetting, ∃ q, y = .value q
  capillary : ∀ y ∈ c.capillary, ∃ q, y = .value q

theorem exists_holds_of_toLaw (h : c.toLaw wetting nonWetting = .ok law) (hc : c.IsRational) :
    ∃ samples, law.Holds samples := by
  obtain ⟨-, hrectangular, -, hmonotone⟩ := exists_toLaw_iff.mp ⟨law, h⟩
  obtain ⟨samples, rfl⟩ := hrectangular.exists_ofSamples
  rw [toLaw_ofSamples] at h
  refine ⟨samples, TwoPhaseLaw.holds_of_ofSamples (fun s hs => ?_) h⟩
  obtain ⟨a, ha⟩ := Exact.exists_value_of_ne
    (hmonotone.defined s.saturation (List.mem_map_of_mem hs))
  obtain ⟨b, hb⟩ := hc.krWetting s.wetting (List.mem_map_of_mem hs)
  obtain ⟨d, hd⟩ := hc.krNonWetting s.nonWetting (List.mem_map_of_mem hs)
  obtain ⟨e, he⟩ := hc.capillary s.capillary (List.mem_map_of_mem hs)
  exact ⟨a, b, d, e, by rw [← ha, ← hb, ← hd, ← he]⟩

/-- A law of rational columns interpolates each of its three quantities. -/
theorem interpolates_of_toLaw (h : c.toLaw wetting nonWetting = .ok law) (hc : c.IsRational) :
    law.Interpolates law.krWetting Sample.wetting ∧
      law.Interpolates law.krNonWetting Sample.nonWetting ∧
      law.Interpolates law.capillaryPressure Sample.capillary := by
  obtain ⟨samples, hholds⟩ := exists_holds_of_toLaw h hc
  exact ⟨hholds.interpolates isQuantity_wetting, hholds.interpolates isQuantity_nonWetting,
    hholds.interpolates isQuantity_capillary⟩

/-- With falling saturations, two of which are the same, the relative permeability of the
wetting phase never falls, and where it jumps it takes the upper value. -/
theorem interpolates_of_toLaw_repeated : ∃ (c : SampleColumns) (law : TwoPhaseLaw Exact),
    c.saturation = [1.0, 0.5, 0.5, 0.2] ∧ c.krWetting = [1.0, 0.4, 0.3, 0.0] ∧
      c.toLaw .water .oil = .ok law ∧ c.IsRational ∧
      (∀ x x' : Rat, x ≤ x' → law.krWetting (.value x) ≤ law.krWetting (.value x')) ∧
      law.krWetting 0.5 = 0.4 := by
  let samples : List (Sample Exact) :=
    [⟨1.0, 1.0, 0.0, 0.0⟩, ⟨0.5, 0.4, 0.1, 1e4⟩, ⟨0.5, 0.3, 0.6, 2e4⟩, ⟨0.2, 0.0, 1.0, 3e4⟩]
  let law : TwoPhaseLaw Exact :=
    ⟨.water, .oil, ⟨0.2, 0.0, 1.0, 3e4⟩,
      [⟨0.5, 0.3, 0.6, 2e4⟩, ⟨0.5, 0.4, 0.1, 1e4⟩, ⟨1.0, 1.0, 0.0, 0.0⟩]⟩
  have hlaw : (ofSamples samples).toLaw .water .oil = .ok law :=
    toLaw_eq_ok_iff.mpr ⟨by decide, by decide, rfl, rfl, by decide +kernel⟩
  have hrational : (ofSamples samples).IsRational := by
    constructor <;> exact fun y hy => Exact.exists_value_of_any (by decide +kernel) hy
  obtain ⟨hwetting, -, -⟩ := interpolates_of_toLaw hlaw hrational
  exact ⟨_, law, rfl, rfl, hlaw, hrational,
    hwetting.nondecreasing (by decide +kernel),
    hwetting.stored [⟨0.2, 0.0, 1.0, 3e4⟩, ⟨0.5, 0.3, 0.6, 2e4⟩] ⟨0.5, 0.4, 0.1, 1e4⟩
      [⟨1.0, 1.0, 0.0, 0.0⟩] rfl (by decide +kernel)⟩

end SampleColumns
end BlackOil

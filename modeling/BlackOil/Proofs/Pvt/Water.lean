import BlackOil.Constants
import BlackOil.Proofs.Outcome
import BlackOil.Proofs.Scalar.Exact
import BlackOil.Pvt.Water
import Mathlib.Tactic.Ring

/-!
# Water at every pressure

The volume factor and the viscosity of water are quotients by `1 + x + x² / 2`, where `x` is
proportional to the distance from the reference pressure and has either sign. The polynomial
completes a square and is at least one half, so both are defined at every pressure and at most
twice their reference values. It rises from `x = -1` on, and from there the volume factor of
compressible water falls.
-/
namespace BlackOil
namespace Water

section Expansion
variable {x y b : Rat}

/-- The polynomial with its square completed. -/
def completed (x : Rat) : Rat := ((x + 1) ^ 2 + 1) / 2

theorem expansion_value (x : Rat) : expansion (Exact.value x) = .value (completed x) := by
  simp only [expansion, completed, Exact.ofScientific_eq, Exact.value_mul, Exact.value_add]
  congr 1
  norm_num
  ring

theorem completed_zero : completed 0 = 1 := by norm_num [completed]

theorem half_le_completed (x : Rat) : 1 / 2 ≤ completed x := by
  have hsquare := sq_nonneg (x + 1)
  unfold completed
  linarith

theorem completed_pos (x : Rat) : 0 < completed x := by
  have hhalf := half_le_completed x
  linarith

theorem expansion_pos (x : Rat) : ∃ e : Rat, expansion (Exact.value x) = .value e ∧ 0 < e :=
  ⟨_, expansion_value x, completed_pos x⟩

/-- Right of its vertex the polynomial rises. -/
theorem completed_le_completed (hx : -1 ≤ x) (hxy : x ≤ y) : completed x ≤ completed y := by
  have hnonneg : 0 ≤ x + 1 := by linarith
  unfold completed
  gcongr

theorem div_expansion_value (b x : Rat) :
    .value b / expansion (Exact.value x) = .value (b / completed x) := by
  rw [expansion_value, Exact.value_div (completed_pos x).ne']

theorem div_completed_le (hb : 0 < b) (x : Rat) : b / completed x ≤ 2 * b := by
  rw [div_le_iff₀ (completed_pos x)]
  nlinarith [half_le_completed x]

end Expansion

section Accepted
variable {w : Water Exact}

theorem checkPositive_eq_ok_iff {field : String} {x : Exact} {u : Unit} :
    checkPositive field x = .ok u ↔ .value 0 < x := by
  unfold checkPositive
  rw [Exact.zero_eq]
  split <;> simp_all

/-- Water is accepted with positive reference values, and an undefined viscosibility is zero. -/
theorem ofFields_eq_ok_iff {p b c mu cv : Exact} : ofFields p b c mu cv = .ok w ↔
    .value 0 < b ∧ .value 0 < mu ∧
      w = ⟨p, b, c, mu, if Scalar.isUndefined cv then .value 0 else cv⟩ := by
  simp only [ofFields, Outcome.bind_eq_ok_iff, Outcome.pure_eq_ok_iff, checkPositive_eq_ok_iff,
    Exact.zero_eq, exists_const]

/-- Water with rational properties and a positive reference volume factor. -/
structure IsPositive (w : Water Exact) : Prop where
  referencePressure : ∃ p : Rat, w.referencePressure = .value p
  compressibility : ∃ c : Rat, w.compressibility = .value c
  referenceVolumeFactor : .value 0 < w.referenceVolumeFactor

theorem isPositive_of_ofTable {table : Table Exact} (h : ofTable table = .ok w) :
    w.IsPositive := by
  unfold ofTable at h
  split at h
  · cases h
  · split at h
    · cases h
    · rename_i hdefined
      have hvalue := fun x => Exact.exists_value_of_any (x := x) hdefined
      obtain ⟨hfactor, -, rfl⟩ := ofFields_eq_ok_iff.mp h
      exact ⟨hvalue _ (by simp), hvalue _ (by simp), hfactor⟩
  · cases h

namespace IsPositive

/-- What the volume factor of the water divides by is positive. -/
theorem exists_expansion (h : w.IsPositive) (p : Rat) : ∃ e : Rat,
    expansion (w.compressibility * (.value p - w.referencePressure)) = .value e ∧ 0 < e := by
  obtain ⟨p₀, hp₀⟩ := h.referencePressure
  obtain ⟨c, hc⟩ := h.compressibility
  rw [hp₀, hc, Exact.value_sub, Exact.value_mul]
  exact expansion_pos (c * (p - p₀))

theorem exists_volumeFactor (h : w.IsPositive) (floor p : Rat) :
    ∃ b, w.volumeFactor (.value floor) (.value p) = .value b ∧ floor ≤ b := by
  obtain ⟨e, he, hpos⟩ := h.exists_expansion p
  obtain ⟨-, b, -, hb, -⟩ := Exact.lt_iff.mp h.referenceVolumeFactor
  refine ⟨max (b / e) floor, ?_, le_max_right _ floor⟩
  simp only [volumeFactor, he, hb, Exact.value_div hpos.ne', Exact.maximum_value]

end IsPositive

/-- How far the water is compressed at a pressure, relative to the reference pressure. -/
def compression (w : Water Exact) (pressure : Exact) : Exact :=
  w.compressibility * (pressure - w.referencePressure)

/-- How far the water is thinned at a pressure, relative to the reference pressure. -/
def thinning (w : Water Exact) (pressure : Exact) : Exact :=
  -w.viscosibility * (pressure - w.referencePressure)

/-- Water with the reference volume factor `b` and the reference viscosity `mu` whose
properties are defined and bounded at every pressure. -/
structure IsBounded (w : Water Exact) (floor b mu : Rat) : Prop where
  volumeFactor : ∀ p : Rat, ∃ e f : Rat,
    expansion (w.compression (.value p)) = .value e ∧ 1 / 2 ≤ e ∧
      w.volumeFactor (.value floor) (.value p) = .value f ∧ f = max floor (b / e) ∧
      floor ≤ f ∧ f ≤ max floor (2 * b)
  reference : w.volumeFactor (.value floor) w.referencePressure = .value (max floor b)
  /-- From the compression `-1` on, the volume factor does not rise with the pressure. -/
  antitone : .value 0 ≤ w.compressibility → ∀ {p q : Rat}, p ≤ q →
    .value (-1) ≤ w.compression (.value p) →
      w.volumeFactor (.value floor) (.value q) ≤ w.volumeFactor (.value floor) (.value p)
  viscosity : ∀ p : Rat, ∃ e m : Rat,
    expansion (w.thinning (.value p)) = .value e ∧ 1 / 2 ≤ e ∧
      w.viscosity (.value p) = .value m ∧ m = mu / e ∧ 0 < m ∧ m ≤ 2 * mu

/-- Water with rational properties. -/
def ofRationals (p b c mu v : Rat) : Water Exact :=
  ⟨.value p, .value b, .value c, .value mu, .value v⟩

section Rationals
variable {p₀ b c mu v : Rat}

theorem compression_ofRationals (p : Rat) :
    (ofRationals p₀ b c mu v).compression (.value p) = .value (c * (p - p₀)) := by
  simp only [compression, ofRationals, Exact.value_sub, Exact.value_mul]

theorem thinning_ofRationals (p : Rat) :
    (ofRationals p₀ b c mu v).thinning (.value p) = .value (-v * (p - p₀)) := by
  simp only [thinning, ofRationals, Exact.neg_value, Exact.value_sub, Exact.value_mul]

theorem volumeFactor_ofRationals (floor p : Rat) :
    (ofRationals p₀ b c mu v).volumeFactor (.value floor) (.value p) =
      .value (max floor (b / completed (c * (p - p₀)))) := by
  change Scalar.maximum (.value b / expansion ((ofRationals p₀ b c mu v).compression (.value p)))
    (.value floor) = _
  rw [compression_ofRationals, div_expansion_value, Exact.maximum_value, max_comm]

theorem viscosity_ofRationals (p : Rat) : (ofRationals p₀ b c mu v).viscosity (.value p) =
    .value (mu / completed (-v * (p - p₀))) := by
  change .value mu / expansion ((ofRationals p₀ b c mu v).thinning (.value p)) = _
  rw [thinning_ofRationals, div_expansion_value]

theorem isBounded_ofRationals (hb : 0 < b) (hmu : 0 < mu) (floor : Rat) :
    (ofRationals p₀ b c mu v).IsBounded floor b mu where
  volumeFactor p := by
    rw [compression_ofRationals]
    exact ⟨_, _, expansion_value _, half_le_completed _, volumeFactor_ofRationals floor p, rfl,
      le_max_left floor _, max_le_max_left floor (div_completed_le hb _)⟩
  reference := by
    change (ofRationals p₀ b c mu v).volumeFactor (.value floor) (.value p₀) = _
    rw [volumeFactor_ofRationals, sub_self, mul_zero, completed_zero, div_one]
  antitone hc p q hpq hp := by
    have hc : 0 ≤ c := hc
    rw [compression_ofRationals, Exact.value_le] at hp
    have hcompression : c * (p - p₀) ≤ c * (q - p₀) := by gcongr
    rw [volumeFactor_ofRationals, volumeFactor_ofRationals, Exact.value_le]
    exact max_le_max_left floor (div_le_div_of_nonneg_left hb.le (completed_pos _)
      (completed_le_completed hp hcompression))
  viscosity p := by
    rw [thinning_ofRationals]
    exact ⟨_, _, expansion_value _, half_le_completed _, viscosity_ofRationals p, rfl,
      div_pos hmu (completed_pos _), div_completed_le hmu _⟩

end Rationals

/-- Whatever its compressibility and its viscosibility, water that is accepted is bounded at
every pressure. An undefined viscosibility leaves the viscosity that of the reference. -/
theorem isBounded_of_ofFields {p₀ c : Rat} {b mu cv : Exact}
    (h : ofFields (.value p₀) b (.value c) mu cv = .ok w) :
    ∃ b₀ mu₀ v : Rat, b = .value b₀ ∧ mu = .value mu₀ ∧
      (cv = .value v ∨ cv = .undefined ∧ v = 0) ∧ w = ofRationals p₀ b₀ c mu₀ v ∧
      (∀ floor : Rat, w.IsBounded floor b₀ mu₀) ∧
      (cv = .undefined → ∀ p : Rat, w.viscosity (.value p) = mu) := by
  obtain ⟨hb, hmu, rfl⟩ := ofFields_eq_ok_iff.mp h
  obtain ⟨b₀, rfl, hb⟩ := Exact.exists_value_of_pos hb
  obtain ⟨mu₀, rfl, hmu⟩ := Exact.exists_value_of_pos hmu
  cases cv with
  | value v =>
    exact ⟨b₀, mu₀, v, rfl, rfl, .inl rfl, rfl, isBounded_ofRationals hb hmu, nofun⟩
  | undefined =>
    refine ⟨b₀, mu₀, 0, rfl, rfl, .inr ⟨rfl, rfl⟩, rfl, isBounded_ofRationals hb hmu, ?_⟩
    intro _ p
    have hviscosity : (ofRationals p₀ b₀ c mu₀ 0).viscosity (.value p) =
        .value (mu₀ / completed (-0 * (p - p₀))) := viscosity_ofRationals p
    rw [neg_zero, zero_mul, completed_zero, div_one] at hviscosity
    exact hviscosity

/-- Water of the default floor whose viscosibility is left out. -/
theorem isBounded_of_ofFields_defaulted : ∃ (w : Water Exact) (floor : Rat),
    ofFields (.value 1e5) (.value 1.02) (.value 4e-10) (.value 5e-4) .undefined = .ok w ∧
      ({} : Constants Exact).floor = .value floor ∧ w.IsBounded floor 1.02 5e-4 ∧
      w.viscosity (.value 3e7) = .value 5e-4 := by
  have hbuilt : (ofFields (Exact.value 1e5) (.value 1.02) (.value 4e-10) (.value 5e-4)
      .undefined).toOption.isSome := by decide +kernel
  obtain ⟨w, h⟩ := Outcome.exists_ok_of_isSome hbuilt
  obtain ⟨b, mu, v, hb, hmu, -, -, hbounded, hviscosity⟩ := isBounded_of_ofFields h
  cases hb
  cases hmu
  exact ⟨w, 1e-12, h, rfl, hbounded 1e-12, hviscosity rfl 3e7⟩

end Accepted
end Water
end BlackOil

import Mathlib
import BlackOil.Proofs.Scalar.Exact
import BlackOil.Scalar.Binary64

/-!
# Undefined scalars

IEEE doubles and exact scalars treat what is undefined alike: it fails every comparison and
arithmetic hands it on. Scalars that are defined are always comparable, so that among them a
comparison fails only if the opposite one holds.
-/
namespace BlackOil

namespace Scalar

/-- What a scalar type lets be concluded from a comparison. -/
class Lawful (α : Type) [Scalar α] : Prop where
  lt_or_le {x y : α} : isUndefined x = false → isUndefined y = false → x < y ∨ y ≤ x
  defined_of_le {x y : α} : x ≤ y → isUndefined x = false ∧ isUndefined y = false
  defined_zero : isUndefined (0.0 : α) = false
  defined_neg {x : α} : isUndefined x = false → isUndefined (-x) = false
  defined_one_add {x : α} : isUndefined x = false → isUndefined (1.0 + x) = false
  undefined_sub {x y : α} : isUndefined x ∨ isUndefined y → isUndefined (x - y)
  undefined_mul {x y : α} : isUndefined x ∨ isUndefined y → isUndefined (x * y)

namespace Lawful
variable {α : Type} [Scalar α] [Lawful α] {x low high : α}

/-- Whoever only asks whether a scalar is too small does not notice that it is undefined. -/
theorem le_iff_of_not_lt (hlow : isUndefined low = false) (h : ¬x < low) :
    low ≤ x ↔ isUndefined x = false :=
  ⟨fun hle => (defined_of_le hle).2, fun hx => (lt_or_le hx hlow).resolve_left h⟩

/-- The same holds for whoever asks whether it is too large. -/
theorem le_iff_of_not_gt (hhigh : isUndefined high = false) (h : ¬high < x) :
    x ≤ high ↔ isUndefined x = false :=
  ⟨fun hle => (defined_of_le hle).1, fun hx => (lt_or_le hhigh hx).resolve_left h⟩

end Lawful
end Scalar

instance : Scalar.Lawful Exact where
  lt_or_le {x y} hx hy := by
    obtain ⟨a, rfl⟩ := Exact.isUndefined_eq_false_iff.mp hx
    obtain ⟨b, rfl⟩ := Exact.isUndefined_eq_false_iff.mp hy
    exact lt_or_ge a b
  defined_of_le h := by
    obtain ⟨a, b, rfl, rfl, -⟩ := Exact.le_iff.mp h
    exact ⟨rfl, rfl⟩
  defined_zero := rfl
  defined_neg {x} hx := by
    obtain ⟨a, rfl⟩ := Exact.isUndefined_eq_false_iff.mp hx
    rfl
  defined_one_add {x} hx := by
    obtain ⟨a, rfl⟩ := Exact.isUndefined_eq_false_iff.mp hx
    rfl
  undefined_sub {x y} h := by
    cases x with
    | undefined => rfl
    | value a =>
      cases y with
      | undefined => rfl
      | value b => simp at h
  undefined_mul {x y} h := by
    cases x with
    | undefined => rfl
    | value a =>
      cases y with
      | undefined => rfl
      | value b => simp at h

instance : Std.Irrefl (α := Exact) (· < ·) := ⟨Exact.lt_irrefl⟩

namespace Binary64
open Float.Model

theorem compare_swap (u v : UnpackedFloat) : v.compare u = (u.compare v).map Ordering.swap := by
  cases u with
  | notANumber => cases v <;> rfl
  | infinity s => cases v with
    | notANumber => cases s <;> rfl
    | infinity s' => cases s <;> cases s' <;> rfl
    | zero s' => cases s <;> rfl
    | finite s' m e hm => cases s <;> rfl
  | zero s => cases v with
    | notANumber => rfl
    | infinity s' => cases s' <;> rfl
    | zero s' => rfl
    | finite s' m e hm => cases s' <;> rfl
  | finite s m e hm => cases v with
    | notANumber => cases s <;> rfl
    | infinity s' => cases s <;> cases s' <;> rfl
    | zero s' => cases s <;> rfl
    | finite s' m' e' hm' =>
      have hswap : (compare e' e).then (compare m' m) =
          ((compare e e').then (compare m m')).swap := by
        have hexponent : compare e' e = (compare e e').swap := Std.OrientedCmp.eq_swap
        have hmantissa : compare m' m = (compare m m').swap := Std.OrientedCmp.eq_swap
        rw [Ordering.swap_then, hexponent, hmantissa]
      cases s <;> cases s' <;> simp [UnpackedFloat.compare, hswap]

/-- Only what is not a number does not compare. -/
theorem compare_eq_none_iff (u v : UnpackedFloat) :
    u.compare v = none ↔ u.isNaN ∨ v.isNaN := by
  fun_cases UnpackedFloat.compare u v <;> simp [UnpackedFloat.isNaN]

theorem isNaN_neg (u : UnpackedFloat) : u.neg.isNaN = u.isNaN := by cases u <;> rfl

theorem isNaN_roundWithAccuracy (format : Format) (s : UnpackedFloat.Sign) (m : Nat) (e : Int)
    (a : UnpackedFloat.Accuracy) :
    (UnpackedFloat.roundWithAccuracy format s m e a).isNaN = false := by
  unfold UnpackedFloat.roundWithAccuracy
  simp only
  split <;> rfl

theorem isNaN_normalize (format : Format) (m e : Int) (s : UnpackedFloat.Sign) :
    (UnpackedFloat.normalize format m e s).isNaN = false := by
  unfold UnpackedFloat.normalize
  split
  · exact isNaN_roundWithAccuracy _ _ _ _ _
  · rfl
  · exact isNaN_roundWithAccuracy _ _ _ _ _

/-- A sum with a finite number is a number. -/
theorem isNaN_add (format : Format) {u v : UnpackedFloat} (hu : u.isFinite) (hv : v.isNaN = false) :
    (UnpackedFloat.add format u v).isNaN = false := by
  cases u with
  | notANumber => cases hu
  | infinity s => cases hu
  | zero s => cases v with
    | notANumber => cases hv
    | infinity s' => rfl
    | zero s' => cases s <;> cases s' <;> rfl
    | finite s' m' e' hm' => rfl
  | finite s m e hm => cases v with
    | notANumber => cases hv
    | infinity s' => rfl
    | zero s' => rfl
    | finite s' m' e' hm' => exact isNaN_normalize _ _ _ _

theorem sub_eq_notANumber (format : Format) {u v : UnpackedFloat} (h : u.isNaN ∨ v.isNaN) :
    UnpackedFloat.sub format u v = .notANumber := by
  cases u <;> cases v <;> simp [UnpackedFloat.isNaN] at h <;> rfl

theorem mul_eq_notANumber (format : Format) {u v : UnpackedFloat} (h : u.isNaN ∨ v.isNaN) :
    UnpackedFloat.mul format u v = .notANumber := by
  cases u <;> cases v <;> simp [UnpackedFloat.isNaN] at h <;> rfl

/-- What has all bits of its exponent set only if these are not packed. -/
theorem isNaN_unpack_packComponents {sign : UnpackedFloat.Sign} {exponent : BitVec 11}
    {mantissa : BitVec 52} (h : exponent ≠ -1#_) :
    (UnpackedFloat.unpack Format.binary64
      (UnpackedFloat.packComponents Format.binary64 sign exponent mantissa)).isNaN = false := by
  unfold UnpackedFloat.unpack
  simp only [UnpackedFloat.unpackExponent_packComponents,
    UnpackedFloat.unpackMantissa_packComponents]
  rw [if_neg h]
  split
  · split <;> rfl
  · rfl

/-- Packing makes numbers of numbers, if need be infinite ones. -/
theorem isNaN_unpack_pack {u : UnpackedFloat} (h : u.isNaN = false) :
    (Float.Model.pack u).unpack.isNaN = false := by
  have hinfinity : ∀ s, (UnpackedFloat.unpack Format.binary64
      (UnpackedFloat.packedInfinity Format.binary64 s)).isNaN = false := by
    intro s
    cases s <;> rfl
  cases u with
  | notANumber => cases h
  | infinity s => exact hinfinity s
  | zero s => cases s <;> rfl
  | finite s m e hm =>
    change (UnpackedFloat.unpack Format.binary64
      (UnpackedFloat.pack Format.binary64 (.finite s m e hm))).isNaN = false
    simp only [UnpackedFloat.pack]
    split
    · exact hinfinity s
    · rename_i hexponent
      split
      · refine isNaN_unpack_packComponents fun he => hexponent ?_
        have hbits := congrArg BitVec.toNat he
        simp at hbits
        simp
        omega
      · exact isNaN_unpack_packComponents (by decide)

theorem lt_iff (x y : Float) :
    x < y ↔ x.toModel.unpack.compare y.toModel.unpack = some .lt := by
  change decide (x.toModel < y.toModel) = true ↔ _
  rw [decide_eq_true_eq]
  exact beq_iff_eq

theorem le_iff (x y : Float) :
    x ≤ y ↔ ∃ o, x.toModel.unpack.compare y.toModel.unpack = some o ∧ o.isLE := by
  change decide (x.toModel ≤ y.toModel) = true ↔ _
  rw [decide_eq_true_eq]
  exact Option.any_eq_true _ _

instance : Scalar.Lawful Float where
  lt_or_le {x y} hx hy := by
    have hsome : x.toModel.unpack.compare y.toModel.unpack ≠ none := by
      rw [Ne, compare_eq_none_iff, not_or, Bool.not_eq_true, Bool.not_eq_true]
      exact ⟨hx, hy⟩
    obtain ⟨o, ho⟩ := Option.ne_none_iff_exists'.mp hsome
    have hback := compare_swap x.toModel.unpack y.toModel.unpack
    rw [ho, Option.map_some] at hback
    rw [lt_iff, le_iff, ho]
    cases o with
    | lt => exact Or.inl rfl
    | eq => exact Or.inr ⟨_, hback, rfl⟩
    | gt => exact Or.inr ⟨_, hback, rfl⟩
  defined_of_le {x y} h := by
    obtain ⟨o, ho, -⟩ := (le_iff x y).mp h
    have hnone := (compare_eq_none_iff x.toModel.unpack y.toModel.unpack).not
    rw [ho, not_or, Bool.not_eq_true, Bool.not_eq_true] at hnone
    exact hnone.mp nofun
  defined_zero := by decide +kernel
  defined_neg {x} hx := isNaN_unpack_pack ((isNaN_neg _).trans hx)
  defined_one_add {x} hx := isNaN_unpack_pack (isNaN_add _ (by decide +kernel) hx)
  undefined_sub {x y} h := by
    change (Float.Model.pack (UnpackedFloat.sub _ x.toModel.unpack y.toModel.unpack)).isNaN
    rw [sub_eq_notANumber _ h]
    rfl
  undefined_mul {x y} h := by
    change (Float.Model.pack (UnpackedFloat.mul _ x.toModel.unpack y.toModel.unpack)).isNaN
    rw [mul_eq_notANumber _ h]
    rfl

instance irrefl_lt : Std.Irrefl (α := Float) (· < ·) where
  irrefl x h := by
    have hless := (lt_iff x x).mp h
    have hback := compare_swap x.toModel.unpack x.toModel.unpack
    rw [hless] at hback
    cases hback

end Binary64
end BlackOil

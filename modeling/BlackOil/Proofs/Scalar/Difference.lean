import Mathlib
import BlackOil.Proofs.Scalar.Packing
import BlackOil.Proofs.Scalar.Undefined

/-!
# Differences of doubles

Every double is a multiple of the least positive one. Counted in these units doubles compare as
integers do, and the difference of two is the rounded difference of two integers. Rounding keeps
the order of numbers and does not reach zero, so a difference has the sign of the comparison and
grows with its first operand, though not always strictly.
-/
namespace BlackOil.Binary64
open Float.Model

/-- The first power of two that is out of range. -/
def beyond : Nat := inUnits (2 ^ 52) 972

/-- The value of a number in units of the least positive double. -/
def units : UnpackedFloat → Int
  | .notANumber => 0
  | .infinity s => s.apply beyond
  | .zero _ => 0
  | .finite s m e _ => s.apply (inUnits m e)

@[simp]
theorem apply_negative (n : Int) : UnpackedFloat.Sign.apply .negative n = -n := rfl

@[simp]
theorem apply_positive (n : Int) : UnpackedFloat.Sign.apply .positive n = n := rfl

/-! ## Order -/

section Order
open UnpackedFloat (Sign)
variable {m m' : Nat} {e e' : Int} {u v : UnpackedFloat}

theorem inUnits_lt_of_lt (h : Aligned m e) (h' : Aligned m' e') (he : e < e') :
    inUnits m e < inUnits m' e' := by
  have hleast := h.least_le
  -- the greater exponent is not the least one, so its significand has all bits
  have hm' : 2 ^ 52 ≤ m' := h'.normal.resolve_left (by omega)
  have hpow : (e + 1074).toNat + 1 ≤ (e' + 1074).toNat := by omega
  rw [inUnits, inUnits]
  calc m * 2 ^ (e + 1074).toNat < 2 ^ 53 * 2 ^ (e + 1074).toNat :=
        Nat.mul_lt_mul_of_pos_right h.lt (Nat.two_pow_pos _)
    _ = 2 ^ 52 * 2 ^ ((e + 1074).toNat + 1) := by ring
    _ ≤ m' * 2 ^ (e' + 1074).toNat :=
      Nat.mul_le_mul hm' (Nat.pow_le_pow_right Nat.two_pos hpow)

theorem compares_inUnits (h : Aligned m e) (h' : Aligned m' e') :
    ((compare e e').then (compare m m')).Compares (inUnits m e : Int) (inUnits m' e') := by
  rcases lt_trichotomy e e' with he | rfl | he
  · rw [compare_lt_iff_lt.mpr he]
    exact Int.ofNat_lt.mpr (inUnits_lt_of_lt h h' he)
  · rw [compare_eq_iff_eq.mpr rfl]
    rcases lt_trichotomy m m' with hm | rfl | hm
    · rw [compare_lt_iff_lt.mpr hm]
      exact Int.ofNat_lt.mpr (inUnits_lt_inUnits hm e)
    · rw [compare_eq_iff_eq.mpr rfl]
      exact rfl
    · rw [compare_gt_iff_gt.mpr hm]
      exact Int.ofNat_lt.mpr (inUnits_lt_inUnits hm e)
  · rw [compare_gt_iff_gt.mpr he]
    exact Int.ofNat_lt.mpr (inUnits_lt_of_lt h' h he)

theorem inUnits_lt_beyond (h : Aligned m e) (he : e < 972) : inUnits m e < beyond :=
  inUnits_lt_of_lt h ⟨by omega, by omega, .inr le_rfl⟩ he

theorem beyond_le_inUnits (h : Aligned m e) (he : 972 ≤ e) : beyond ≤ inUnits m e :=
  inUnits_le_inUnits (h.normal.resolve_left (by omega)) he

theorem beyond_pos : 0 < beyond := inUnits_pos (Nat.two_pow_pos 52) 972

theorem units_pack_finite (s : Sign) (hm : 0 < m) (h : Aligned m e) :
    units (Float.Model.pack (.finite s m e hm)).unpack =
      s.apply (min (inUnits m e) beyond : Nat) := by
  rcases lt_or_ge e 972 with he | he
  · rw [unpack_pack_of_lt s hm h he, Nat.min_eq_left (inUnits_lt_beyond h he).le]
    rfl
  · rw [unpack_pack_of_le s hm he, Nat.min_eq_right (beyond_le_inUnits h he)]
    rfl

theorem compares_neg {a b : Int} {o : Ordering} (h : o.Compares a b) :
    o.swap.Compares (-a) (-b) := by
  cases o with
  | lt => exact Int.neg_lt_neg h
  | eq => exact congrArg Neg.neg h
  | gt => exact Int.neg_lt_neg h

/-- Two numbers compare as their values do. -/
def ComparesByUnits (u v : UnpackedFloat) : Prop :=
  ∃ o, u.compare v = some o ∧ o.Compares (units u) (units v)

theorem ComparesByUnits.symm (h : ComparesByUnits v u) : ComparesByUnits u v := by
  obtain ⟨o, ho, hcompares⟩ := h
  refine ⟨o.swap, ?_, hcompares.swap⟩
  rw [compare_swap, ho]
  rfl

theorem compares_infinity (s : Sign) (hv : Canonical v) (hv' : v.isNaN = false) :
    ComparesByUnits (.infinity s) v := by
  have hbeyond : 0 < (beyond : Int) := Int.natCast_pos.mpr beyond_pos
  cases hv with
  | notANumber => cases hv'
  | infinity s' =>
    cases s <;> cases s'
    · exact ⟨.eq, rfl, rfl⟩
    · exact ⟨.lt, rfl, neg_lt_self hbeyond⟩
    · exact ⟨.gt, rfl, neg_lt_self hbeyond⟩
    · exact ⟨.eq, rfl, rfl⟩
  | zero s' =>
    cases s
    · exact ⟨.lt, rfl, Int.neg_neg_of_pos hbeyond⟩
    · exact ⟨.gt, rfl, hbeyond⟩
  | @finite s' m e hm h he =>
    have hlt : (inUnits m e : Int) < beyond := Int.ofNat_lt.mpr (inUnits_lt_beyond h he)
    cases s <;> cases s'
    · exact ⟨.lt, rfl, Int.neg_lt_neg hlt⟩
    · exact ⟨.lt, rfl, (by omega : -(beyond : Int) < inUnits m e)⟩
    · exact ⟨.gt, rfl, (by omega : -(inUnits m e : Int) < beyond)⟩
    · exact ⟨.gt, rfl, hlt⟩

theorem compares_zero (s s' : Sign) (hm : 0 < m) :
    ComparesByUnits (.zero s) (.finite s' m e hm) := by
  have hpos : 0 < (inUnits m e : Int) := Int.natCast_pos.mpr (inUnits_pos hm e)
  cases s'
  · exact ⟨.gt, rfl, Int.neg_neg_of_pos hpos⟩
  · exact ⟨.lt, rfl, hpos⟩

theorem compares_finite (s s' : Sign) (hm : 0 < m) (hm' : 0 < m') (h : Aligned m e)
    (h' : Aligned m' e') : ComparesByUnits (.finite s m e hm) (.finite s' m' e' hm') := by
  have hpos : 0 < (inUnits m e : Int) := Int.natCast_pos.mpr (inUnits_pos hm e)
  have hpos' : 0 < (inUnits m' e' : Int) := Int.natCast_pos.mpr (inUnits_pos hm' e')
  cases s <;> cases s'
  · exact ⟨_, rfl, compares_neg (compares_inUnits h h')⟩
  · exact ⟨.lt, rfl, (by omega : -(inUnits m e : Int) < inUnits m' e')⟩
  · exact ⟨.gt, rfl, (by omega : -(inUnits m' e' : Int) < inUnits m e)⟩
  · exact ⟨_, rfl, compares_inUnits h h'⟩

/-- This holds of all doubles that are numbers, infinite ones included. -/
theorem comparesByUnits (hu : Canonical u) (hv : Canonical v) (hu' : u.isNaN = false)
    (hv' : v.isNaN = false) : ComparesByUnits u v := by
  cases hu with
  | notANumber => cases hu'
  | infinity s => exact compares_infinity s hv hv'
  | zero s =>
    cases hv with
    | notANumber => cases hv'
    | infinity s' => exact (compares_infinity s' (.zero s) hu').symm
    | zero s' => exact ⟨.eq, rfl, rfl⟩
    | finite s' hm' h' he' => exact compares_zero s s' hm'
  | finite s hm h he =>
    cases hv with
    | notANumber => cases hv'
    | infinity s' => exact (compares_infinity s' (.finite s hm h he) hu').symm
    | zero s' => exact (compares_zero s' s hm).symm
    | finite s' hm' h' he' => exact compares_finite s s' hm hm' h h'

end Order

/-! ## Rounding of values -/

section Values
open UnpackedFloat (Sign)
variable {k n : Int} {u v : UnpackedFloat}

/-- The value of the double nearest to a value, if need be infinite. -/
def roundUnits (n : Int) : Int := n.sign * (min (Binary.double.roundNat n.natAbs) beyond : Nat)

theorem roundUnits_natCast (n : Nat) :
    roundUnits n = (min (Binary.double.roundNat n) beyond : Nat) := by
  rcases Nat.eq_zero_or_pos n with rfl | hn
  · rfl
  · rw [roundUnits, Int.sign_eq_one_of_pos (Int.natCast_pos.mpr hn), Int.one_mul,
      Int.natAbs_natCast]

@[simp]
theorem roundUnits_zero : roundUnits 0 = 0 := rfl

@[simp]
theorem roundUnits_neg (n : Int) : roundUnits (-n) = -roundUnits n := by
  rw [roundUnits, roundUnits, Int.sign_neg, Int.natAbs_neg, Int.neg_mul]

theorem roundUnits_apply (s : Sign) (n : Nat) :
    roundUnits (s.apply n) = s.apply (min (Binary.double.roundNat n) beyond : Nat) := by
  cases s <;> simp [roundUnits_natCast]

theorem roundUnits_nonneg (h : 0 ≤ n) : 0 ≤ roundUnits n := by
  obtain ⟨n, rfl⟩ := Int.eq_ofNat_of_zero_le h
  rw [roundUnits_natCast]
  exact Int.natCast_nonneg _

theorem roundUnits_pos (h : 0 < n) : 0 < roundUnits n := by
  obtain ⟨n, rfl⟩ := Int.eq_ofNat_of_zero_le h.le
  have hround : 1 <<< 0 ≤ Binary.double.roundNat n :=
    Binary.Format.le_roundNat (by decide) (by omega)
  have hbeyond := beyond_pos
  rw [roundUnits_natCast]
  omega

theorem roundUnits_mono (h : k ≤ n) : roundUnits k ≤ roundUnits n := by
  have hmono : ∀ {k n : Int}, 0 ≤ k → k ≤ n → roundUnits k ≤ roundUnits n := by
    intro k n hk h
    obtain ⟨k, rfl⟩ := Int.eq_ofNat_of_zero_le hk
    obtain ⟨n, rfl⟩ := Int.eq_ofNat_of_zero_le (hk.trans h)
    have hround := Binary.Format.roundNat_mono (f := Binary.double) (by decide) (Int.ofNat_le.mp h)
    rw [roundUnits_natCast, roundUnits_natCast]
    omega
  -- below zero the opposites are compared
  rcases le_total 0 k with hk | hk
  · exact hmono hk h
  rcases le_total 0 n with hn | hn
  · have hneg := roundUnits_nonneg (n := -k) (by omega)
    rw [roundUnits_neg] at hneg
    exact Int.le_trans (by omega) (roundUnits_nonneg hn)
  · have hneg := hmono (k := -n) (n := -k) (by omega) (by omega)
    rw [roundUnits_neg, roundUnits_neg] at hneg
    omega

theorem roundUnits_nonpos_iff : roundUnits n ≤ 0 ↔ n ≤ 0 := by
  constructor
  · intro h
    by_contra hn
    have hpos := roundUnits_pos (n := n) (by omega)
    omega
  · intro h
    have hnonneg := roundUnits_nonneg (n := -n) (by omega)
    rw [roundUnits_neg] at hnonneg
    omega

/-- The finite doubles are their own nearest ones. -/
theorem roundUnits_units (hu : Canonical u) (hfinite : u.isFinite) :
    roundUnits (units u) = units u := by
  cases hu with
  | notANumber => cases hfinite
  | infinity s => cases hfinite
  | zero s => exact roundUnits_zero
  | @finite s m e hm h he =>
    have hself : Binary.double.roundNat (inUnits m e) = inUnits m e := by
      rw [inUnits]
      exact Binary.Format.roundNat_mul_two_pow (by decide) h.lt _
    rw [units, roundUnits_apply, hself, Nat.min_eq_left (inUnits_lt_beyond h he).le]

theorem units_round (s : Sign) {m : Nat} {e : Int} (hm : m ≠ 0) (he : -1074 ≤ e) :
    units (Float.Model.pack (UnpackedFloat.round .binary64 s m e)).unpack =
      roundUnits (s.apply (inUnits m e)) := by
  obtain ⟨m', e', hm', hround, haligned, hunits⟩ := round_eq s hm he
  rw [hround, units_pack_finite s hm' haligned, hunits, roundUnits_apply]

theorem apply_mul_two_pow (s : Sign) (m : Nat) (e : Int) :
    s.apply m * 2 ^ (e + 1074).toNat = s.apply (inUnits m e) := by
  rw [inUnits]
  cases s <;> simp

theorem units_normalize (n : Int) {e : Int} (he : -1074 ≤ e) :
    units (Float.Model.pack (UnpackedFloat.normalize .binary64 n e .positive)).unpack =
      roundUnits (n * 2 ^ (e + 1074).toNat) := by
  fun_cases UnpackedFloat.normalize .binary64 n e .positive with
  | case1 h =>
    have hn := Int.compare_eq_lt.mp h
    rw [units_round _ (by omega) he, ← apply_mul_two_pow, apply_negative,
      Int.toNat_of_nonneg (by omega), Int.neg_neg]
  | case2 h =>
    rw [Int.compare_eq_eq.mp h, Int.zero_mul]
    rfl
  | case3 h =>
    have hn := Int.compare_eq_gt.mp h
    rw [units_round _ (by omega) he, ← apply_mul_two_pow, apply_positive,
      Int.toNat_of_nonneg (by omega)]

/-- The difference of two finite doubles is the double nearest to it. -/
theorem units_sub (hu : Canonical u) (hv : Canonical v) (hu' : u.isFinite) (hv' : v.isFinite) :
    units (Float.Model.pack (UnpackedFloat.sub .binary64 u v)).unpack =
      roundUnits (units u - units v) := by
  -- without one of the operands nothing is rounded, and the other is its own nearest double
  cases hu with
  | notANumber => cases hu'
  | infinity s => cases hu'
  | zero s =>
    have hback := roundUnits_units hv hv'
    cases hv with
    | notANumber => cases hv'
    | infinity s' => cases hv'
    | zero s' => cases s <;> cases s' <;> rfl
    | finite s' hm' h' he' =>
      change units (Float.Model.pack (.finite (-s') _ _ hm')).unpack = roundUnits (0 - _)
      rw [unpack_pack (.finite (-s') hm' h' he'), Int.zero_sub, roundUnits_neg, hback]
      cases s' with
      | negative => exact (Int.neg_neg _).symm
      | positive => rfl
  | @finite s m e hm h he =>
    have hleast := h.least_le
    have hback := roundUnits_units (.finite s hm h he) hu'
    cases hv with
    | notANumber => cases hv'
    | infinity s' => cases hv'
    | zero s' =>
      change units (Float.Model.pack (.finite s m e hm)).unpack = roundUnits (_ - 0)
      rw [unpack_pack (.finite s hm h he), Int.sub_zero, hback]
    | @finite s' m' e' hm' h' he' =>
      have hleast' := h'.least_le
      obtain ⟨n, hn, -, hunits⟩ := decreaseExponent_eq m e (min e e')
      obtain ⟨n', hn', -, hunits'⟩ := decreaseExponent_eq m' e' (min e e')
      simp only [UnpackedFloat.sub, hn, hn']
      rw [min_eq_right (min_le_left e e')] at hunits
      rw [min_eq_right (min_le_right e e')] at hunits'
      rw [units_normalize _ (by omega), Int.sub_mul, apply_mul_two_pow, apply_mul_two_pow,
        hunits (by omega), hunits' (by omega)]
      rfl

/-- A difference of finite numbers is a number. -/
theorem isNaN_sub (hu : u.isFinite) (hv : v.isFinite) :
    (UnpackedFloat.sub .binary64 u v).isNaN = false := by
  cases u with
  | notANumber => cases hu
  | infinity s => cases hu
  | zero s =>
    cases v with
    | notANumber => cases hv
    | infinity s' => cases hv
    | zero s' => cases s <;> cases s' <;> rfl
    | finite s' m' e' hm' => rfl
  | finite s m e hm =>
    cases v with
    | notANumber => cases hv
    | infinity s' => cases hv
    | zero s' => rfl
    | finite s' m' e' hm' => exact isNaN_normalize _ _ _ _

theorem sub_same (hu : u.isFinite) : UnpackedFloat.sub .binary64 u u = .zero .positive := by
  cases u with
  | notANumber => cases hu
  | infinity s => cases hu
  | zero s => cases s <;> rfl
  | finite s m e hm =>
    simp only [UnpackedFloat.sub, Int.sub_self]
    rfl

/-- The quotient of a significand by itself is one, with all the bits that a double keeps. -/
theorem divCore_same {m : Nat} (hm : 0 < m) (e : Int) :
    UnpackedFloat.divCore .binary64 m e m e = (2 ^ 53, -53, .exact) := by
  have htarget : min 0 (Format.binary64.targetExponent 0) = -53 := by decide
  have hquotient : m <<< 53 / m = 2 ^ 53 := by
    rw [Nat.shiftLeft_eq, Nat.mul_div_cancel_left _ hm]
  have hrest : m <<< 53 % m = 0 := by
    rw [Nat.shiftLeft_eq, Nat.mul_mod_right]
  simp only [UnpackedFloat.divCore, Int.sub_self, htarget]
  change (m <<< 53 / m, (-53 : Int), UnpackedFloat.accuracyOfFraction (m <<< 53 % m) m) = _
  rw [hquotient, hrest]
  rfl

theorem div_same (hu : u.isFinite) (hne : units u ≠ 0) : UnpackedFloat.div .binary64 u u =
    .finite .positive (2 ^ 52) (-52) (Nat.two_pow_pos 52) := by
  cases u with
  | notANumber => cases hu
  | infinity s => cases hu
  | zero s => exact absurd rfl hne
  | finite s m e hm =>
    simp only [UnpackedFloat.div, divCore_same hm]
    cases s <;> rfl

end Values

/-! ## Doubles -/

section Doubles
variable {x y z : Float}

/-- The value of a double in units of the least positive one. -/
def value (x : Float) : Int := units x.toModel.unpack

theorem canonical (x : Float) : Canonical x.toModel.unpack := canonical_unpack _

theorem isNaN_of_isFinite (h : x.isFinite) : x.isNaN = false := by
  change x.toModel.unpack.isNaN = false
  change x.toModel.unpack.isFinite = true at h
  cases hx : x.toModel.unpack <;> simp_all [UnpackedFloat.isNaN, UnpackedFloat.isFinite]

theorem lt_iff_value (hx : x.isNaN = false) (hy : y.isNaN = false) : x < y ↔ value x < value y := by
  obtain ⟨o, ho, hcompares⟩ := comparesByUnits (canonical x) (canonical y) hx hy
  rw [lt_iff, ho, Option.some_inj]
  exact hcompares.eq_lt

theorem le_iff_value (hx : x.isNaN = false) (hy : y.isNaN = false) : x ≤ y ↔ value x ≤ value y := by
  obtain ⟨o, ho, hcompares⟩ := comparesByUnits (canonical x) (canonical y) hx hy
  simp only [le_iff, ho, Option.some.injEq, exists_eq_left']
  rw [Ordering.isLE_iff_ne_gt]
  exact hcompares.ne_gt

theorem value_sub (hx : x.isFinite) (hy : y.isFinite) :
    value (x - y) = roundUnits (value x - value y) :=
  units_sub (canonical x) (canonical y) hx hy

theorem defined_sub (hx : x.isFinite) (hy : y.isFinite) : (x - y).isNaN = false :=
  isNaN_unpack_pack (isNaN_sub hx hy)

theorem zero_eq : (0.0 : Float) = .ofModel (Float.Model.pack (.zero .positive)) := by
  decide +kernel

theorem one_eq : (1.0 : Float) =
    .ofModel (Float.Model.pack (.finite .positive (2 ^ 52) (-52) (Nat.two_pow_pos 52))) := by
  decide +kernel

theorem sub_eq_zero (hx : x.isFinite) : x - x = 0.0 := by
  rw [zero_eq]
  exact congrArg (fun u => Float.ofModel (Float.Model.pack u)) (sub_same hx)

theorem div_eq_one (hx : x.isFinite) (hne : value x ≠ 0) : x / x = 1.0 := by
  rw [one_eq]
  exact congrArg (fun u => Float.ofModel (Float.Model.pack u)) (div_same hx hne)

theorem value_zero : value 0.0 = 0 := by
  rw [value, zero_eq]
  change units (Float.Model.pack (.zero .positive)).unpack = 0
  rw [unpack_pack (.zero _)]
  rfl

theorem beq_zero_iff (hx : x.isNaN = false) : (x == 0.0) = true ↔ value x = 0 := by
  obtain ⟨o, ho, hcompares⟩ := comparesByUnits (canonical x) (canonical 0.0) hx (by decide +kernel)
  change (x.toModel.unpack.compare (0.0 : Float).toModel.unpack == some .eq) = true ↔ _
  rw [ho, beq_iff_eq, Option.some_inj, hcompares.eq_eq]
  exact value_zero ▸ Iff.rfl

theorem defined_of_lt (h : x < y) : x.isNaN = false ∧ y.isNaN = false := by
  have hnone := (compare_eq_none_iff x.toModel.unpack y.toModel.unpack).not
  rw [(lt_iff x y).mp h, not_or, Bool.not_eq_true, Bool.not_eq_true] at hnone
  exact hnone.mp nofun

end Doubles

end BlackOil.Binary64

namespace BlackOil.Scalar

/-- What a scalar type lets be concluded about finite scalars and their differences. -/
class FiniteArithmetic (α : Type) [Scalar α] extends Lawful α where
  IsFinite : α → Prop
  defined_of_finite {x : α} : IsFinite x → isUndefined x = false
  lt_iff_le_not_le {x y : α} : x < y ↔ x ≤ y ∧ ¬y ≤ x
  lt_trans {x y z : α} : x < y → y < z → x < z
  sub_nonpos_iff {x y : α} : IsFinite x → IsFinite y → (y - x ≤ 0.0 ↔ y ≤ x)
  sub_self {x : α} : IsFinite x → x - x = 0.0
  sub_le_sub {x y z : α} : IsFinite x → IsFinite y → IsFinite z → x ≤ y → x - z ≤ y - z
  div_self {x : α} : IsFinite x → (x == 0.0) = false → x / x = 1.0

namespace FiniteArithmetic
variable {α : Type} [Scalar α] [FiniteArithmetic α] {x y : α}

instance : Trans (α := α) (· < ·) (· < ·) (· < ·) := ⟨lt_trans⟩

/-- The difference to something larger is positive, however close the two are. -/
theorem sub_pos (hx : IsFinite x) (hy : IsFinite y) (h : x < y) : 0.0 < y - x := by
  have hle : y ≤ y := (Lawful.lt_or_le (defined_of_finite hy) (defined_of_finite hy)).elim
    (fun hlt => (lt_iff_le_not_le.mp hlt).1) id
  have hdefined := (Lawful.defined_of_le (sub_le_sub hy hy hx hle)).1
  have hnot : ¬y - x ≤ 0.0 := by
    rw [sub_nonpos_iff hx hy]
    exact (lt_iff_le_not_le.mp h).2
  exact (Lawful.lt_or_le Lawful.defined_zero hdefined).resolve_right hnot

end FiniteArithmetic

instance : FiniteArithmetic Exact where
  IsFinite x := isUndefined x = false
  defined_of_finite := id
  lt_iff_le_not_le {x y} := by
    refine ⟨fun h => ⟨Exact.le_of_lt h, Exact.not_le_of_lt h⟩, fun ⟨hle, hnot⟩ => ?_⟩
    obtain ⟨a, b, rfl, rfl, -⟩ := Exact.le_iff.mp hle
    exact (Exact.value_lt a b).mpr (not_le.mp hnot)
  lt_trans := Exact.lt_trans
  sub_nonpos_iff _ _ := Exact.sub_nonpos_iff
  sub_self {x} hx := by
    obtain ⟨q, rfl⟩ := Exact.isUndefined_eq_false_iff.mp hx
    rw [Exact.value_sub, sub_self, Exact.zero_eq]
  sub_le_sub {x y z} _ _ hz h := by
    obtain ⟨a, b, rfl, rfl, hle⟩ := Exact.le_iff.mp h
    obtain ⟨c, rfl⟩ := Exact.isUndefined_eq_false_iff.mp hz
    exact sub_le_sub_right hle c
  div_self {x} hx hne := by
    obtain ⟨q, rfl⟩ := Exact.isUndefined_eq_false_iff.mp hx
    rw [Exact.zero_eq, Exact.value_beq, decide_eq_false_iff_not] at hne
    rw [Exact.value_div hne, div_self hne, Exact.one_eq]

open Binary64 in
instance : FiniteArithmetic Float where
  IsFinite x := x.isFinite
  defined_of_finite := isNaN_of_isFinite
  lt_iff_le_not_le {x y} := by
    constructor
    · intro h
      obtain ⟨hx, hy⟩ := defined_of_lt h
      rw [lt_iff_value hx hy] at h
      rw [le_iff_value hx hy, le_iff_value hy hx]
      omega
    · intro h
      obtain ⟨hx, hy⟩ := Lawful.defined_of_le h.1
      rw [le_iff_value hx hy, le_iff_value hy hx] at h
      rw [lt_iff_value hx hy]
      omega
  lt_trans {x y z} hxy hyz := by
    obtain ⟨hx, hy⟩ := defined_of_lt hxy
    have hz := (defined_of_lt hyz).2
    rw [lt_iff_value hx hy] at hxy
    rw [lt_iff_value hy hz] at hyz
    exact (lt_iff_value hx hz).mpr (hxy.trans hyz)
  sub_nonpos_iff {x y} hx hy := by
    rw [le_iff_value (defined_sub hy hx) (by decide +kernel), value_sub hy hx, value_zero,
      roundUnits_nonpos_iff, le_iff_value (isNaN_of_isFinite hy) (isNaN_of_isFinite hx)]
    omega
  sub_self := sub_eq_zero
  sub_le_sub {x y z} hx hy hz h := by
    rw [le_iff_value (isNaN_of_isFinite hx) (isNaN_of_isFinite hy)] at h
    rw [le_iff_value (defined_sub hx hz) (defined_sub hy hz), value_sub hx hz, value_sub hy hz]
    exact roundUnits_mono (by omega)
  div_self {x} hx hne := by
    refine div_eq_one hx fun hzero => ?_
    rw [(beq_zero_iff (isNaN_of_isFinite hx)).mpr hzero] at hne
    cases hne

end BlackOil.Scalar

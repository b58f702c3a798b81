import Mathlib
import BlackOil.Proofs.Scalar.Rounding

/-!
# Rounded and packed doubles

The model of doubles rounds a significand by shifting it bit by bit and packs it into fields of
bits. What comes of it is the nearest number in units of the least positive double. Its
significand is aligned, so that unpacking gives the number back unless it is out of range.
-/
namespace BlackOil.Binary64
open Float.Model

/-! ## Rounding of significands -/

section Shift
open UnpackedFloat (Accuracy ExtendedMantissa accuracyOfFraction)
variable {q r d : Nat}

theorem accuracyOfFraction_zero (d : Nat) : accuracyOfFraction 0 d = .exact := rfl

theorem accuracyOfFraction_of_pos (hr : 0 < r) :
    accuracyOfFraction r d = .inexact (compare (2 * r) d) := if_neg (Nat.ne_of_gt hr)

/-- Of the bit that a shift drops and the fraction behind it one fraction is made. -/
theorem shiftRightOne_ofFraction (hr : r < d) :
    (ExtendedMantissa.ofMantissaAndAccuracy q (accuracyOfFraction r d)).shiftRightOne =
      .ofMantissaAndAccuracy (q / 2) (accuracyOfFraction (r + d * (q % 2)) (d * 2)) := by
  -- the new fraction depends on the bit, and on whether anything was dropped before
  rcases Nat.eq_zero_or_pos r with rfl | hpos <;> rcases Nat.mod_two_eq_zero_or_one q with hq | hq
  · rw [hq, Nat.mul_zero, accuracyOfFraction_zero, accuracyOfFraction_zero]
    simp [ExtendedMantissa.shiftRightOne, ExtendedMantissa.ofMantissaAndAccuracy, hq]
  · have hhalf : compare (2 * (0 + d * 1)) (d * 2) = .eq := compare_eq_iff_eq.mpr (by omega)
    rw [hq, accuracyOfFraction_zero, accuracyOfFraction_of_pos (by omega), hhalf]
    simp [ExtendedMantissa.shiftRightOne, ExtendedMantissa.ofMantissaAndAccuracy, hq]
  · have hless : compare (2 * (r + d * 0)) (d * 2) = .lt := compare_lt_iff_lt.mpr (by omega)
    rw [hq, accuracyOfFraction_of_pos hpos, accuracyOfFraction_of_pos (by omega), hless]
    cases compare (2 * r) d <;>
      simp [ExtendedMantissa.shiftRightOne, ExtendedMantissa.ofMantissaAndAccuracy, hq]
  · have hmore : compare (2 * (r + d * 1)) (d * 2) = .gt := compare_gt_iff_gt.mpr (by omega)
    rw [hq, accuracyOfFraction_of_pos hpos, accuracyOfFraction_of_pos (by omega), hmore]
    cases compare (2 * r) d <;>
      simp [ExtendedMantissa.shiftRightOne, ExtendedMantissa.ofMantissaAndAccuracy, hq]

theorem shiftRight_exact (m k : Nat) : ExtendedMantissa.ofMantissaAndAccuracy m .exact >>> k =
    .ofMantissaAndAccuracy (m / 2 ^ k) (accuracyOfFraction (m % 2 ^ k) (2 ^ k)) := by
  induction k with
  | zero => simp [HShiftRight.hShiftRight, Nat.repeat, accuracyOfFraction, Nat.mod_one]
  | succ k ih =>
    have hstep : ExtendedMantissa.ofMantissaAndAccuracy m .exact >>> (k + 1) =
        (ExtendedMantissa.ofMantissaAndAccuracy m .exact >>> k).shiftRightOne := rfl
    rw [hstep, ih, shiftRightOne_ofFraction (Nat.mod_lt _ (Nat.two_pow_pos k)),
      Nat.div_div_eq_div_mul, ← Nat.mod_mul, ← Nat.pow_succ]

theorem roundedMantissa_ofMantissaAndAccuracy (q : Nat) (a : Accuracy) :
    (ExtendedMantissa.ofMantissaAndAccuracy q a).roundedMantissa = a.roundToNearestEven q := by
  rcases a with _ | (_ | _ | _) <;> rfl

/-- A number is rounded up if more than half is dropped, or half if it is odd. -/
theorem roundToNearestEven_ofFraction (hd : 0 < d) :
    (accuracyOfFraction r d).roundToNearestEven q =
      if d < 2 * r ∨ (2 * r = d ∧ q % 2 = 1) then q + 1 else q := by
  rcases Nat.eq_zero_or_pos r with rfl | hpos
  · rw [accuracyOfFraction_zero, if_neg (by omega)]
    rfl
  · rw [accuracyOfFraction_of_pos hpos]
    rcases Nat.lt_trichotomy (2 * r) d with h | h | h
    · rw [compare_lt_iff_lt.mpr h, if_neg (by omega)]
      rfl
    · rw [compare_eq_iff_eq.mpr h]
      change q + q % 2 = _
      split <;> omega
    · rw [compare_gt_iff_gt.mpr h, if_pos (.inl h)]
      rfl

theorem roundedMantissa_shiftRight (m k : Nat) :
    (ExtendedMantissa.ofMantissaAndAccuracy m .exact >>> k).roundedMantissa =
      Binary.roundHalfEven m (2 ^ k) := by
  rw [shiftRight_exact, roundedMantissa_ofMantissaAndAccuracy,
    roundToNearestEven_ofFraction (Nat.two_pow_pos k)]
  rfl

end Shift

/-! ## Doubles as integers -/

/-- The value of a significand and an exponent in units of the least positive double. It may be
far too large to compute with. -/
@[irreducible]
def inUnits (m : Nat) (e : Int) : Nat := m * 2 ^ (e + 1074).toNat

theorem inUnits_lt_inUnits {m m' : Nat} (hm : m < m') (e : Int) : inUnits m e < inUnits m' e := by
  rw [inUnits, inUnits]
  exact Nat.mul_lt_mul_of_pos_right hm (Nat.two_pow_pos _)

theorem inUnits_pos {m : Nat} (hm : 0 < m) (e : Int) : 0 < inUnits m e := by
  rw [inUnits]
  exact Nat.mul_pos hm (Nat.two_pow_pos _)

theorem inUnits_le_inUnits {m m' : Nat} {e e' : Int} (hm : m ≤ m') (he : e ≤ e') :
    inUnits m e ≤ inUnits m' e' := by
  rw [inUnits, inUnits]
  exact Nat.mul_le_mul hm (Nat.pow_le_pow_right Nat.two_pos (by omega))

/-- The significand has its first bit in the highest place, unless the exponent is least. -/
structure Aligned (m : Nat) (e : Int) : Prop where
  lt : m < 2 ^ 53
  least_le : -1074 ≤ e
  normal : e = -1074 ∨ 2 ^ 52 ≤ m

section Round
open UnpackedFloat (ExtendedMantissa Sign roundWithAccuracy)
variable {m n : Nat} {e : Int}

theorem log2_mul_two_pow (hn : n ≠ 0) (k : Nat) : (n * 2 ^ k).log2 = n.log2 + k := by
  have hne : n * 2 ^ k ≠ 0 := Nat.mul_ne_zero hn (Nat.two_pow_pos k).ne'
  rw [Nat.log2_eq_iff hne, Nat.pow_add, Nat.add_right_comm, Nat.pow_add]
  exact ⟨Nat.mul_le_mul_right _ (Nat.log2_self_le hn),
    Nat.mul_lt_mul_of_pos_right Nat.lt_log2_self (Nat.two_pow_pos k)⟩

/-- The bits that a double does not keep of a number. -/
def spare (n : Nat) : Nat := n.log2 + 1 - 53

theorem targetExponent_eq (hn : n ≠ 0) (he : -1074 ≤ e) :
    Format.binary64.targetExponent (totalExponent n e) = (spare (inUnits n e) : Int) - 1074 := by
  have hleast : Format.binary64.minExponent = -1074 := by decide
  have hbits : Format.binary64.mantissaBits = 53 := by decide
  rw [Format.targetExponent, totalExponent, hleast, hbits, spare, inUnits, log2_mul_two_pow hn]
  omega

theorem shiftToTargetExponent_exact (hn : n ≠ 0) (he : -1074 ≤ e) {k : Nat}
    (hk : ((spare (inUnits n e) : Int) - 1074 - e).toNat = k) :
    UnpackedFloat.shiftToTargetExponent .binary64 n e .exact =
      (ExtendedMantissa.ofMantissaAndAccuracy n .exact >>> k, e + k) := by
  subst hk
  simp only [UnpackedFloat.shiftToTargetExponent, UnpackedFloat.shiftToExponent,
    targetExponent_eq hn he]

/-- What is kept of a number has the bits of a double or is the next power of two. -/
theorem kept_bounds (hn : n ≠ 0) :
    (spare n = 0 ∨ 2 ^ 52 ≤ Binary.roundHalfEven n (2 ^ spare n)) ∧
      0 < Binary.roundHalfEven n (2 ^ spare n) ∧ Binary.roundHalfEven n (2 ^ spare n) ≤ 2 ^ 53 := by
  have hhigh : n < 2 ^ (53 + spare n) :=
    (Nat.log2_lt hn).mp (by unfold spare; omega)
  have hle : Binary.roundHalfEven n (2 ^ spare n) ≤ 2 ^ 53 :=
    Binary.roundHalfEven_le (Nat.two_pow_pos _) (Nat.pow_add .. ▸ Nat.le_of_lt hhigh)
  by_cases hspare : spare n = 0
  · have hself : Binary.roundHalfEven n (2 ^ 0) = n := by
      have h := Binary.roundHalfEven_mul_self n Nat.one_pos
      rwa [Nat.mul_one] at h
    refine ⟨.inl hspare, ?_, hle⟩
    rw [hspare, hself]
    exact Nat.pos_of_ne_zero hn
  · have hlow : 2 ^ (52 + spare n) ≤ n :=
      (Nat.le_log2 hn).mp (by unfold spare at hspare ⊢; omega)
    have hge : 2 ^ 52 ≤ Binary.roundHalfEven n (2 ^ spare n) :=
      Binary.le_roundHalfEven (Nat.two_pow_pos _) (Nat.pow_add .. ▸ hlow)
    exact ⟨.inr hge, Nat.lt_of_lt_of_le (Nat.two_pow_pos 52) hge, hle⟩

theorem roundNat_eq (n : Nat) : Binary.double.roundNat n =
    Binary.roundHalfEven n (2 ^ spare n) * 2 ^ spare n := by
  rw [Binary.Format.roundNat, Nat.shiftLeft_eq, Nat.shiftLeft_eq, Nat.one_mul]
  rfl

theorem inUnits_sub (m k : Nat) : inUnits m ((k : Int) - 1074) = m * 2 ^ k := by
  rw [inUnits]
  congr 2
  omega

/-- Rounding once more only halves what has become the next power of two. -/
theorem exists_aligned {r k : Nat} (hr : 0 < r) (hle : r ≤ 2 ^ 53) (hnormal : k = 0 ∨ 2 ^ 52 ≤ r) :
    ∃ m e, (∃ em, UnpackedFloat.shiftToTargetExponent .binary64 r ((k : Int) - 1074) .exact =
        (em, e) ∧ em.mantissa = m) ∧ 0 < m ∧ Aligned m e ∧ inUnits m e = r * 2 ^ k := by
  have hspare : spare (inUnits r ((k : Int) - 1074)) = r.log2 + k + 1 - 53 := by
    rw [inUnits_sub, spare, log2_mul_two_pow hr.ne']
  rcases Nat.lt_or_eq_of_le hle with hlt | rfl
  · have hlog : r.log2 < 53 := (Nat.log2_lt hr.ne').mpr hlt
    have hshift := shiftToTargetExponent_exact (e := (k : Int) - 1074) hr.ne' (by omega) (k := 0)
      (by omega)
    exact ⟨r, _, ⟨_, hshift, rfl⟩, hr, ⟨hlt, by omega, by omega⟩, by
      rw [Int.natCast_zero, Int.add_zero, inUnits_sub]⟩
  · rw [Nat.log2_two_pow] at hspare
    have hshift := shiftToTargetExponent_exact (e := (k : Int) - 1074) hr.ne' (by omega) (k := 1)
      (by omega)
    refine ⟨2 ^ 52, _, ⟨_, hshift, ?_⟩, by omega, ⟨by omega, by omega, by omega⟩, ?_⟩
    · rw [shiftRight_exact]
      rfl
    · have hnext : (k : Int) - 1074 + (1 : Nat) = ((k + 1 : Nat) : Int) - 1074 := by omega
      rw [hnext, inUnits_sub]
      ring

/-- Rounding gives an aligned significand, of the number with the bits that a double keeps. -/
theorem roundWithAccuracy_exact (s : Sign) (hn : n ≠ 0) (he : -1074 ≤ e)
    (hle : e ≤ (spare (inUnits n e) : Int) - 1074) :
    ∃ m' e' hm, roundWithAccuracy .binary64 s n e .exact = .finite s m' e' hm ∧ Aligned m' e' ∧
      inUnits m' e' = Binary.double.roundNat (inUnits n e) := by
  have hne : inUnits n e ≠ 0 := (inUnits_pos (Nat.pos_of_ne_zero hn) e).ne'
  obtain ⟨hnormal, hpos, hbound⟩ := kept_bounds hne
  generalize hk : spare (inUnits n e) = k at *
  obtain ⟨j, hj⟩ : ∃ j : Nat, (k : Int) - 1074 = e + j := ⟨((k : Int) - 1074 - e).toNat, by omega⟩
  have hfirst := shiftToTargetExponent_exact hn he (k := j) (by omega)
  have hkept : (ExtendedMantissa.ofMantissaAndAccuracy n .exact >>> j).roundedMantissa =
      Binary.roundHalfEven (inUnits n e) (2 ^ k) := by
    -- the bits below the exponent are zero, so it is the same to round the whole number
    have hsplit : k = j + (e + 1074).toNat := by omega
    rw [roundedMantissa_shiftRight, inUnits, hsplit, Nat.pow_add,
      Binary.roundHalfEven_mul_right _ _ (Nat.two_pow_pos _)]
  obtain ⟨m', e', ⟨em, hsecond, hmantissa⟩, hm', haligned, hunits⟩ :=
    exists_aligned hpos hbound hnormal
  refine ⟨m', e', hm', ?_, haligned, ?_⟩
  · subst hmantissa
    rw [roundWithAccuracy, hfirst]
    simp only [hkept, ← hj, hsecond]
    rw [dif_neg hm'.ne']
  · rw [hunits, roundNat_eq, hk]

/-- Leading zeros taken into the significand do not change a number. -/
theorem decreaseExponent_eq (n : Nat) (e target : Int) :
    ∃ n', UnpackedFloat.decreaseExponent n e target = (n', min e target) ∧ (n ≠ 0 → n' ≠ 0) ∧
      (-1074 ≤ min e target → inUnits n' (min e target) = inUnits n e) := by
  obtain ⟨j, hj⟩ : ∃ j, (e - target).toNat = j := ⟨_, rfl⟩
  refine ⟨n * 2 ^ j, ?_, fun hn => Nat.mul_ne_zero hn (Nat.two_pow_pos j).ne', fun he => ?_⟩
  · rw [UnpackedFloat.decreaseExponent, hj, Nat.shiftLeft_eq]
    congr 1
    omega
  · have hsplit : (e + 1074).toNat = j + (min e target + 1074).toNat := by omega
    rw [inUnits, inUnits, hsplit, Nat.pow_add, Nat.mul_assoc]

theorem round_eq (s : Sign) (hn : n ≠ 0) (he : -1074 ≤ e) :
    ∃ m' e' hm, UnpackedFloat.round .binary64 s n e = .finite s m' e' hm ∧ Aligned m' e' ∧
      inUnits m' e' = Binary.double.roundNat (inUnits n e) := by
  obtain ⟨n', hdecrease, hn', hunits⟩ :=
    decreaseExponent_eq n e ((spare (inUnits n e) : Int) - 1074)
  rw [UnpackedFloat.round, targetExponent_eq hn he]
  simp only [hdecrease]
  have hround := roundWithAccuracy_exact s (hn' hn)
    (e := min e ((spare (inUnits n e) : Int) - 1074)) (by omega)
  rw [hunits (by omega)] at hround
  exact hround (by omega)

end Round

/-! ## Packed numbers -/

section Packing
open UnpackedFloat (Sign packComponents)
variable {m : Nat} {e : Int}

/-- What doubles unpack to. -/
inductive Canonical : UnpackedFloat → Prop
  | notANumber : Canonical .notANumber
  | infinity (s : Sign) : Canonical (.infinity s)
  | zero (s : Sign) : Canonical (.zero s)
  | finite (s : Sign) {m : Nat} {e : Int} (hm : 0 < m) (h : Aligned m e) (he : e < 972) :
      Canonical (.finite s m e hm)

theorem exponentBias_eq : (Format.binary64.exponentBias : Int) = 1023 := rfl

theorem toNat_hiddenBit_append (fraction : BitVec 52) :
    (1#1 ++ fraction).toNat = 2 ^ 52 + fraction.toNat := by
  rw [BitVec.toNat_append, ← Nat.shiftLeft_add_eq_or_of_lt fraction.isLt]
  rfl

theorem canonical_unpack (bits : BitVec Format.binary64.numBits) :
    Canonical (UnpackedFloat.unpack .binary64 bits) := by
  fun_cases UnpackedFloat.unpack .binary64 bits with
  | case1 => exact .infinity _
  | case2 => exact .notANumber
  | case3 => exact .zero _
  | case4 fraction field exponent signBit sign hfinite hzero hne =>
    have hfraction : fraction.toNat < 2 ^ 52 := fraction.isLt
    have hexponent : exponent = -1075 := by
      simp only [exponent, hzero, exponentBias_eq]
      rfl
    exact .finite _ _ ⟨by omega, by omega, by omega⟩ (by omega)
  | case5 fraction field exponent signBit sign hfinite hne =>
    have hfraction : fraction.toNat < 2 ^ 52 := fraction.isLt
    have hnormal := toNat_hiddenBit_append fraction
    have hexponent : exponent = (field.toNat : Int) - 1075 := by
      simp only [exponent, exponentBias_eq]
      rfl
    have hhigh : field.toNat ≠ 2047 := fun h => hfinite (BitVec.eq_of_toNat_eq h)
    have hlow : field.toNat ≠ 0 := fun h => hne (BitVec.eq_of_toNat_eq h)
    have hfield : field.toNat < 2048 := field.isLt
    exact .finite _ _ ⟨by omega, by omega, by omega⟩ (by omega)

theorem ofBitVec_unpackSign (s : Sign) (field : BitVec 11) (fraction : BitVec 52) :
    Sign.ofBitVec (UnpackedFloat.unpackSign (packComponents .binary64 s field fraction)) = s := by
  simp only [UnpackedFloat.unpackSign, packComponents, BitVec.extractLsb]
  rw [BitVec.extractLsb'_append_eq_of_le (by omega), BitVec.extractLsb'_append_eq_of_le (by omega)]
  cases s <;> rfl

theorem unpack_subnormal (s : Sign) (fraction : BitVec 52) (hm : 0 < fraction.toNat) :
    UnpackedFloat.unpack .binary64 (packComponents .binary64 s 0#11 fraction) =
      .finite s fraction.toNat (-1074) hm := by
  have hne : fraction ≠ 0#52 := fun hzero => hm.ne' (congrArg BitVec.toNat hzero)
  rw [UnpackedFloat.unpack]
  simp only [UnpackedFloat.unpackExponent_packComponents,
    UnpackedFloat.unpackMantissa_packComponents, ofBitVec_unpackSign]
  rw [if_neg (by decide), if_pos trivial, dif_neg hne]
  rfl

theorem unpack_normal (s : Sign) (field : BitVec 11) (fraction : BitVec 52)
    (hlow : 0 < field.toNat) (hhigh : field.toNat < 2047) :
    UnpackedFloat.unpack .binary64 (packComponents .binary64 s field fraction) =
      .finite s (2 ^ 52 + fraction.toNat) (field.toNat - 1075) (by omega) := by
  have hfinite : field ≠ -1#11 := fun h => hhigh.ne (congrArg BitVec.toNat h)
  have hne : field ≠ 0#11 := fun h => hlow.ne' (congrArg BitVec.toNat h)
  rw [UnpackedFloat.unpack]
  simp only [UnpackedFloat.unpackExponent_packComponents,
    UnpackedFloat.unpackMantissa_packComponents, ofBitVec_unpackSign]
  rw [if_neg hfinite, if_neg hne]
  simp only [toNat_hiddenBit_append]
  rfl

theorem biased_eq (e : Int) :
    (e + Format.binary64.exponentBias + (52 : Nat)).toNat = (e + 1075).toNat := by
  rw [exponentBias_eq]
  omega

/-- A number that is too large is packed as an infinite one. -/
theorem unpack_pack_of_le (s : Sign) (hm : 0 < m) (he : 972 ≤ e) :
    (Float.Model.pack (.finite s m e hm)).unpack = .infinity s := by
  change UnpackedFloat.unpack .binary64 (UnpackedFloat.pack .binary64 (.finite s m e hm)) = _
  simp only [UnpackedFloat.pack, biased_eq]
  rw [if_pos (by omega)]
  cases s <;> rfl

theorem unpack_pack_of_lt (s : Sign) (hm : 0 < m) (h : Aligned m e) (he : e < 972) :
    (Float.Model.pack (.finite s m e hm)).unpack = .finite s m e hm := by
  change UnpackedFloat.unpack .binary64 (UnpackedFloat.pack .binary64 (.finite s m e hm)) = _
  obtain ⟨hlt, hleast, hnormal⟩ := h
  have hbits : Format.binary64.mantissaBits = 53 := by decide
  have hfirst : m.log2 + 1 = 53 ↔ 2 ^ 52 ≤ m := by
    have hhigh := (Nat.log2_lt hm.ne').mpr hlt
    rw [← Nat.le_log2 hm.ne']
    omega
  simp only [UnpackedFloat.pack, biased_eq, hbits, hfirst]
  rw [if_neg (by omega)]
  split
  case isTrue hbit =>
    have hfield : (BitVec.ofNat 11 (e + 1075).toNat).toNat = (e + 1075).toNat := by
      rw [BitVec.toNat_ofNat]
      omega
    have hfraction : (BitVec.ofNat 52 m).toNat = m - 2 ^ 52 := by
      rw [BitVec.toNat_ofNat]
      omega
    rw [unpack_normal s (.ofNat 11 (e + 1075).toNat) (.ofNat 52 m) (by omega) (by omega)]
    simp only [UnpackedFloat.finite.injEq, hfield, hfraction, true_and]
    omega
  case isFalse hbit =>
    have hfraction : (BitVec.ofNat 52 m).toNat = m := by
      rw [BitVec.toNat_ofNat]
      omega
    rw [unpack_subnormal s (.ofNat 52 m) (by omega)]
    simp only [UnpackedFloat.finite.injEq, hfraction, true_and]
    omega

/-- What doubles unpack to is packed without loss. -/
theorem unpack_pack {u : UnpackedFloat} (hu : Canonical u) : (Float.Model.pack u).unpack = u := by
  cases hu with
  | notANumber => rfl
  | infinity s => cases s <;> rfl
  | zero s => cases s <;> rfl
  | finite s hm h he => exact unpack_pack_of_lt s hm h he

end Packing

end BlackOil.Binary64

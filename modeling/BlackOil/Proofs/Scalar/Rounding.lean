import BlackOil.Scalar.Binary
import Mathlib.Tactic.Ring

/-!
# Rounding to a binary format

Rounding a quotient to the nearest number depends on the quotient only, and never changes the
order of two numbers. The same holds of the significant bits that a format keeps: numbers with
no more bits stay, and of two numbers the larger one never becomes the smaller.
-/
namespace BlackOil.Binary

section Quotients
variable {num num' den k : Nat}

theorem roundHalfEven_bounds (num den : Nat) :
    num / den ≤ roundHalfEven num den ∧ roundHalfEven num den ≤ num / den + 1 := by
  simp only [roundHalfEven]
  split <;> omega

theorem roundHalfEven_mul_right (num den : Nat) {c : Nat} (hc : 0 < c) :
    roundHalfEven (num * c) (den * c) = roundHalfEven num den := by
  have hlt : den * c < 2 * (num % den * c) ↔ den < 2 * (num % den) := by
    rw [← Nat.mul_assoc]
    exact Nat.mul_lt_mul_right hc
  have heq : 2 * (num % den * c) = den * c ↔ 2 * (num % den) = den := by
    rw [← Nat.mul_assoc]
    exact Nat.mul_left_inj (Nat.ne_of_gt hc)
  simp only [roundHalfEven, Nat.mul_div_mul_right _ _ hc, Nat.mul_mod_mul_right, hlt, heq]

/-- A multiple is its own quotient. -/
theorem roundHalfEven_mul_self (k : Nat) (hden : 0 < den) : roundHalfEven (k * den) den = k := by
  simp only [roundHalfEven, Nat.mul_div_cancel _ hden, Nat.mul_mod_left]
  rw [if_neg (by omega)]

theorem roundHalfEven_mono (h : num ≤ num') : roundHalfEven num den ≤ roundHalfEven num' den := by
  have hdiv : num / den ≤ num' / den := Nat.div_le_div_right h
  rcases Nat.lt_or_eq_of_le hdiv with hlt | heq
  · have hlow := (roundHalfEven_bounds num den).2
    have hhigh := (roundHalfEven_bounds num' den).1
    omega
  · -- With one quotient the larger number has the larger remainder.
    have hmod : num % den ≤ num' % den := by
      have hnum := Nat.div_add_mod num den
      have hnum' := Nat.div_add_mod num' den
      rw [← heq] at hnum'
      omega
    simp only [roundHalfEven, ← heq]
    split <;> split <;> omega

theorem roundHalfEven_le (hden : 0 < den) (h : num ≤ k * den) : roundHalfEven num den ≤ k :=
  roundHalfEven_mul_self k hden ▸ roundHalfEven_mono h

theorem le_roundHalfEven (hden : 0 < den) (h : k * den ≤ num) : k ≤ roundHalfEven num den :=
  roundHalfEven_mul_self k hden ▸ roundHalfEven_mono h

end Quotients

namespace Format
variable {f : Format} {k m n : Nat}

/-- Rounding does not lead below a power of two. -/
theorem le_roundNat (hf : 0 < f.precision) (h : 1 <<< k ≤ n) : 1 <<< k ≤ f.roundNat n := by
  have hne : n ≠ 0 := by
    rintro rfl
    simp [Nat.shiftLeft_eq] at h
  have hk : k ≤ n.log2 := (Nat.le_log2 hne).mpr (by simpa [Nat.shiftLeft_eq] using h)
  unfold roundNat
  generalize hs : n.log2 + 1 - f.precision = spare
  have hspare : spare ≤ n.log2 := by omega
  simp only [Nat.shiftLeft_eq, Nat.one_mul]
  have hsplit : 2 ^ (n.log2 - spare) * 2 ^ spare = 2 ^ n.log2 := by
    rw [← Nat.pow_add, Nat.sub_add_cancel hspare]
  have hhigh : 2 ^ (n.log2 - spare) ≤ roundHalfEven n (2 ^ spare) :=
    le_roundHalfEven (Nat.two_pow_pos spare) (hsplit ▸ Nat.log2_self_le hne)
  calc 2 ^ k ≤ 2 ^ n.log2 := Nat.pow_le_pow_right Nat.two_pos hk
    _ = 2 ^ (n.log2 - spare) * 2 ^ spare := hsplit.symm
    _ ≤ roundHalfEven n (2 ^ spare) * 2 ^ spare := Nat.mul_le_mul_right _ hhigh

/-- Nor does it lead above one. -/
theorem roundNat_le (hf : 0 < f.precision) (h : n < 2 ^ k) : f.roundNat n ≤ 2 ^ k := by
  by_cases hne : n = 0
  · subst hne
    have hzero : roundHalfEven 0 (1 <<< (1 - f.precision)) = 0 := by
      rw [Nat.sub_eq_zero_of_le hf]
      rfl
    simp [roundNat, hzero]
  · have hk : n.log2 < k := (Nat.log2_lt hne).mpr h
    unfold roundNat
    generalize hs : n.log2 + 1 - f.precision = spare
    have hspare : spare ≤ k := by omega
    simp only [Nat.shiftLeft_eq, Nat.one_mul]
    have hsplit : 2 ^ (k - spare) * 2 ^ spare = 2 ^ k := by
      rw [← Nat.pow_add, Nat.sub_add_cancel hspare]
    calc roundHalfEven n (2 ^ spare) * 2 ^ spare ≤ 2 ^ (k - spare) * 2 ^ spare :=
          Nat.mul_le_mul_right _
            (roundHalfEven_le (Nat.two_pow_pos spare) (hsplit ▸ Nat.le_of_lt h))
      _ = 2 ^ k := hsplit

theorem roundNat_mono (hf : 0 < f.precision) (h : m ≤ n) : f.roundNat m ≤ f.roundNat n := by
  by_cases hlog : m.log2 = n.log2
  · simp only [roundNat, hlog, Nat.shiftLeft_eq]
    exact Nat.mul_le_mul_right _ (roundHalfEven_mono h)
  · -- Otherwise a power of two lies between the two numbers.
    have hlt : m < 2 ^ n.log2 := by
      by_cases hm : m = 0
      · exact hm ▸ Nat.two_pow_pos _
      · have hn : n ≠ 0 := by omega
        have hle : m.log2 ≤ n.log2 :=
          (Nat.le_log2 hn).mpr (Nat.le_trans (Nat.log2_self_le hm) h)
        exact (Nat.log2_lt hm).mp (by omega)
    have hn : n ≠ 0 := by
      rintro rfl
      exact hlog (by rw [Nat.le_zero.mp h])
    calc f.roundNat m ≤ 2 ^ n.log2 := roundNat_le hf hlt
      _ = 1 <<< n.log2 := by rw [Nat.shiftLeft_eq, Nat.one_mul]
      _ ≤ f.roundNat n := le_roundNat hf (by simpa [Nat.shiftLeft_eq] using Nat.log2_self_le hn)

/-- What has no more significant bits than the format keeps is not changed. -/
theorem roundNat_mul_two_pow (hf : 0 < f.precision) (h : m < 2 ^ f.precision) (k : Nat) :
    f.roundNat (m * 2 ^ k) = m * 2 ^ k := by
  unfold roundNat
  generalize hs : (m * 2 ^ k).log2 + 1 - f.precision = spare
  have hspare : spare ≤ k := by
    by_cases hzero : m * 2 ^ k = 0
    · rw [hzero, Nat.log2_zero] at hs
      omega
    · have hlt : m * 2 ^ k < 2 ^ (f.precision + k) :=
        Nat.pow_add .. ▸ Nat.mul_lt_mul_of_pos_right h (Nat.two_pow_pos k)
      have hlog := (Nat.log2_lt hzero).mpr hlt
      omega
  have hsplit : m * 2 ^ k = m * 2 ^ (k - spare) * 2 ^ spare := by
    rw [Nat.mul_assoc, ← Nat.pow_add, Nat.sub_add_cancel hspare]
  simp only [Nat.shiftLeft_eq, Nat.one_mul]
  rw [hsplit, roundHalfEven_mul_self _ (Nat.two_pow_pos spare)]

end Format
end BlackOil.Binary

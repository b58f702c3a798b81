import BlackOil.Curve
import BlackOil.Scalar.Exact
import Mathlib.Data.List.Chain
import Mathlib.Tactic.Linarith

/-!
# Order of exact scalars

Two exact scalars compare only if both are rational numbers, and then as these do. The
greater, the lesser and the clipped of rational numbers are rational numbers again, so that
a clamp keeps what it clamps defined. The steps of a list say how its members are ordered.
-/
namespace BlackOil
namespace Exact
variable {x y z : Exact}

theorem zero_eq : (0.0 : Exact) = value 0 := by decide +kernel

theorem one_eq : (1.0 : Exact) = value 1 := by decide +kernel

theorem exists_value_of_ne (h : x ≠ undefined) : ∃ q, x = value q := by
  cases x with
  | value q => exact ⟨q, rfl⟩
  | undefined => exact absurd rfl h

theorem isUndefined_eq_false_iff : Scalar.isUndefined x = false ↔ ∃ q, x = value q := by
  cases x <;> simp

/-- Values none of which is undefined are rational numbers. -/
theorem exists_value_of_any {l : List Exact} (h : ¬l.any Scalar.isUndefined) (hx : x ∈ l) :
    ∃ q, x = value q := by
  rw [Bool.not_eq_true, List.any_eq_false] at h
  exact isUndefined_eq_false_iff.mp (Bool.not_eq_true _ ▸ h x hx)

theorem lt_iff : x < y ↔ ∃ a b, x = value a ∧ y = value b ∧ a < b := by
  cases x with
  | undefined => simp [not_undefined_lt]
  | value a =>
    cases y with
    | undefined => simp [not_lt_undefined]
    | value b => simp

theorem le_iff : x ≤ y ↔ ∃ a b, x = value a ∧ y = value b ∧ a ≤ b := by
  cases x with
  | undefined => simpa using show ¬undefined ≤ y from id
  | value a =>
    cases y with
    | undefined => simpa using show ¬value a ≤ undefined from id
    | value b => simp

theorem exists_value_of_pos (h : value 0 < x) : ∃ q, x = value q ∧ 0 < q := by
  obtain ⟨_, q, hzero, rfl, hpos⟩ := lt_iff.mp h
  cases hzero
  exact ⟨q, rfl, hpos⟩

protected theorem lt_irrefl (x : Exact) : ¬x < x := by
  intro h
  obtain ⟨a, b, ha, hb, hlt⟩ := lt_iff.mp h
  cases ha
  cases hb
  exact lt_irrefl a hlt

protected theorem ne_of_lt (h : x < y) : x ≠ y :=
  fun hxy => Exact.lt_irrefl y (hxy ▸ h)

protected theorem le_of_lt (h : x < y) : x ≤ y := by
  obtain ⟨a, b, rfl, rfl, hlt⟩ := lt_iff.mp h
  exact (value_le a b).mpr hlt.le

protected theorem not_le_of_lt (h : x < y) : ¬y ≤ x := by
  obtain ⟨a, b, rfl, rfl, hlt⟩ := lt_iff.mp h
  exact fun hle => absurd ((value_le b a).mp hle) (not_le.mpr hlt)

protected theorem lt_trans (h : x < y) (h' : y < z) : x < z := by
  obtain ⟨a, b, rfl, rfl, hlt⟩ := lt_iff.mp h
  obtain ⟨_, c, hb, rfl, hlt'⟩ := lt_iff.mp h'
  cases hb
  exact (value_lt a c).mpr (hlt.trans hlt')

protected theorem le_trans (h : x ≤ y) (h' : y ≤ z) : x ≤ z := by
  obtain ⟨a, b, rfl, rfl, hle⟩ := le_iff.mp h
  obtain ⟨_, c, hb, rfl, hle'⟩ := le_iff.mp h'
  cases hb
  exact (value_le a c).mpr (hle.trans hle')

protected theorem lt_of_le_of_ne (h : x ≤ y) (hne : x ≠ y) : x < y := by
  obtain ⟨a, b, rfl, rfl, hle⟩ := le_iff.mp h
  exact (value_lt a b).mpr (lt_of_le_of_ne hle fun hab => hne (congrArg value hab))

instance : Trans (α := Exact) (· < ·) (· < ·) (· < ·) := ⟨Exact.lt_trans⟩

instance : Trans (α := Exact) (· ≤ ·) (· ≤ ·) (· ≤ ·) := ⟨Exact.le_trans⟩

instance : Trans (α := Exact) (fun a b => b ≤ a) (fun a b => b ≤ a) (fun a b => b ≤ a) :=
  ⟨fun h h' => Exact.le_trans h' h⟩

/-- The scalar lies between zero and one. -/
def InUnit (x : Exact) : Prop := value 0 ≤ x ∧ x ≤ value 1

theorem inUnit_value_iff {q : Rat} : (value q).InUnit ↔ 0 ≤ q ∧ q ≤ 1 := by
  rw [InUnit, value_le, value_le]

theorem beq_self_iff : (x == x) = true ↔ ∃ q, x = value q := by
  cases x with
  | value q => simp [value_beq]
  | undefined => simpa using show ¬(undefined == undefined) = true by decide

@[simp] theorem maximum_value (a b : Rat) :
    Scalar.maximum (value a) (value b) = value (max a b) := by
  unfold Scalar.maximum
  by_cases h : b ≤ a
  · simp [h]
  · simp [h, le_of_not_ge h]

@[simp] theorem minimum_value (a b : Rat) :
    Scalar.minimum (value a) (value b) = value (min a b) := by
  unfold Scalar.minimum
  by_cases h : a ≤ b
  · simp [h]
  · simp [h, le_of_not_ge h]

@[simp] theorem clip_value (a low high : Rat) :
    Scalar.clip (value a) (value low) (value high) = value (min (max a low) high) := by
  simp [Scalar.clip]

@[simp] theorem precedes_value (a b : Rat) :
    precedes (value a) (value b) = decide (a < b) := by
  simp [precedes]

theorem pos_of_not_nonpos (h : ¬x ≤ 0.0) (hx : x ≠ undefined) : value 0 < x := by
  obtain ⟨q, rfl⟩ := exists_value_of_ne hx
  rw [zero_eq, value_le, not_le] at h
  exact (value_lt 0 q).mpr h

protected theorem add_comm (x y : Exact) : x + y = y + x := by
  cases x with
  | undefined => cases y <;> rfl
  | value a =>
    cases y with
    | undefined => rfl
    | value b => rw [value_add, value_add, add_comm]

protected theorem mul_comm (x y : Exact) : x * y = y * x := by
  cases x with
  | undefined => cases y <;> rfl
  | value a =>
    cases y with
    | undefined => rfl
    | value b => rw [value_mul, value_mul, mul_comm]

@[simp] theorem add_undefined (x : Exact) : x + undefined = undefined := by cases x <;> rfl

@[simp] theorem undefined_add (x : Exact) : undefined + x = undefined := rfl

@[simp] theorem mul_undefined (x : Exact) : x * undefined = undefined := by cases x <;> rfl

@[simp] theorem undefined_mul (x : Exact) : undefined * x = undefined := rfl

protected theorem mul_right_comm (x y z : Exact) : x * y * z = x * z * y := by
  cases x with
  | undefined => rfl
  | value a =>
    cases y with
    | undefined => simp
    | value b =>
      cases z with
      | undefined => simp
      | value c => rw [value_mul, value_mul, value_mul, value_mul, mul_right_comm]

theorem div_value_zero (x : Exact) : x / value 0 = undefined := by cases x <;> rfl

/-- A clamp does not make up for an undefined value. -/
@[simp] theorem maximum_undefined (x : Exact) : Scalar.maximum undefined x = undefined :=
  if_pos (.inr rfl)

theorem nonneg_sub_iff : (0.0 : Exact) ≤ y - x ↔ x ≤ y := by
  rw [zero_eq]
  cases x with
  | undefined => cases y <;> exact Iff.rfl
  | value a =>
    cases y with
    | undefined => exact Iff.rfl
    | value b => simp

theorem sub_nonpos_iff : y - x ≤ (0.0 : Exact) ↔ y ≤ x := by
  rw [zero_eq]
  cases x with
  | undefined => cases y <;> exact Iff.rfl
  | value a =>
    cases y with
    | undefined => exact Iff.rfl
    | value b => simp

end Exact

namespace Scalar

/-- What holds of all steps of a list holds between its neighbours. -/
theorem forall_mem_steps_iff {α : Type} [Scalar α] {P : α → Prop} {l : List α} :
    (∀ d ∈ steps l, P d) ↔ l.IsChain fun a b => P (b - a) := by
  induction l with
  | nil => simp [steps]
  | cons a l ih =>
    cases l with
    | nil => simp [steps]
    | cons b l =>
      rw [steps, List.forall_mem_cons, ih, List.isChain_cons_cons]

variable {l : List Exact}

theorem all_steps_nonneg_iff : (steps l).all (0.0 ≤ ·) ↔ l.Pairwise (· ≤ ·) := by
  have hchain : (∀ d ∈ steps l, (0.0 : Exact) ≤ d) ↔ l.IsChain (· ≤ ·) := by
    simp only [forall_mem_steps_iff, Exact.nonneg_sub_iff]
  simp only [List.all_eq_true, decide_eq_true_iff, hchain, List.isChain_iff_pairwise]

theorem all_steps_nonpos_iff : (steps l).all (· ≤ 0.0) ↔ l.Pairwise fun a b => b ≤ a := by
  have hchain : (∀ d ∈ steps l, d ≤ (0.0 : Exact)) ↔ l.IsChain fun a b => b ≤ a := by
    simp only [forall_mem_steps_iff, Exact.sub_nonpos_iff]
  simp only [List.all_eq_true, decide_eq_true_iff, hchain, List.isChain_iff_pairwise]

/-- Among steps none of which goes up, one goes down exactly if not all stay level. -/
theorem any_steps_neg_iff (h : l.Pairwise fun a b => b ≤ a) :
    (steps l).any (· < 0.0) ↔ ¬l.Pairwise (· ≤ ·) := by
  have hnonpos : ∀ d ∈ steps l, d ≤ (0.0 : Exact) := by
    simpa only [List.all_eq_true, decide_eq_true_iff] using all_steps_nonpos_iff.mpr h
  rw [← all_steps_nonneg_iff, List.any_eq_true, List.all_eq_true]
  push Not
  refine exists_congr fun d => and_congr_right fun hd => ?_
  obtain ⟨q, _, rfl, hzero, -⟩ := Exact.le_iff.mp (hnonpos d hd)
  simp

/-- Rational numbers without a step down increase. -/
theorem pairwise_lt_of_steps (hl : ∀ x ∈ l, ∃ q, x = Exact.value q)
    (h : (steps l).any (· ≤ 0.0) = false) : l.Pairwise (· < ·) := by
  have hsteps : ∀ d ∈ steps l, ¬d ≤ (0.0 : Exact) := by simpa using h
  have hchain := forall_mem_steps_iff.mp hsteps
  simp only [Exact.sub_nonpos_iff] at hchain
  refine List.IsChain.pairwise (hchain.imp_of_mem_imp fun a b ha hb hab => ?_)
  obtain ⟨p, rfl⟩ := hl a ha
  obtain ⟨q, rfl⟩ := hl b hb
  rw [Exact.value_le, not_le] at hab
  exact (Exact.value_lt p q).mpr hab

/-- Between numbers that increase every step is positive. -/
theorem steps_pos (h : l.Pairwise (· < ·)) : ∀ d ∈ steps l, Exact.value 0 < d := by
  rw [forall_mem_steps_iff]
  refine h.isChain.imp fun a b hab => ?_
  obtain ⟨p, q, rfl, rfl, hlt⟩ := Exact.lt_iff.mp hab
  exact (Exact.value_lt 0 (q - p)).mpr (sub_pos.mpr hlt)

end Scalar
end BlackOil

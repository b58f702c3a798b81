import BlackOil.Proofs.Curve.Extended
import Mathlib.Tactic.Ring

/-!
# Held curves

A curve held constant beyond its knots takes either the value of a knot or a value on the
segment between two knots whose abscissae enclose the argument. So it never leaves the range
of its knots and never divides by zero, also where knots share an abscissa.
-/
namespace BlackOil

/-- The scalar lies between the least and the greatest of a column. -/
def Exact.Within (column : List Exact) (x : Exact) : Prop :=
  (∃ a ∈ column, a ≤ x) ∧ ∃ b ∈ column, x ≤ b

namespace Exact.Within
variable {column column' : List Exact} {x : Exact}

theorem exists_value (h : Exact.Within column x) : ∃ q, x = .value q := by
  obtain ⟨⟨a, -, ha⟩, -⟩ := h
  obtain ⟨-, q, -, rfl, -⟩ := Exact.le_iff.mp ha
  exact ⟨q, rfl⟩

/-- A member lies between the least and the greatest. -/
theorem of_mem {q : Rat} (h : .value q ∈ column) : Exact.Within column (.value q) :=
  ⟨⟨_, h, (Exact.value_le q q).mpr le_rfl⟩, ⟨_, h, (Exact.value_le q q).mpr le_rfl⟩⟩

/-- What lies between two members lies between the least and the greatest. -/
theorem of_between {a b c : Rat} (ha : .value a ∈ column) (hb : .value b ∈ column)
    (hle : min a b ≤ c) (hge : c ≤ max a b) : Exact.Within column (.value c) := by
  constructor
  · obtain h | h := min_le_iff.mp hle
    · exact ⟨_, ha, (Exact.value_le a c).mpr h⟩
    · exact ⟨_, hb, (Exact.value_le b c).mpr h⟩
  · obtain h | h := le_max_iff.mp hge
    · exact ⟨_, ha, (Exact.value_le c a).mpr h⟩
    · exact ⟨_, hb, (Exact.value_le c b).mpr h⟩

theorem mono (h : Exact.Within column x) (hsubset : column ⊆ column') :
    Exact.Within column' x := by
  obtain ⟨⟨a, ha, hax⟩, b, hb, hxb⟩ := h
  exact ⟨⟨a, hsubset ha, hax⟩, b, hsubset hb, hxb⟩

/-- The bounds of the members bound what lies between them. -/
theorem bounds (h : Exact.Within column x) {low high : Exact}
    (hc : ∀ y ∈ column, low ≤ y ∧ y ≤ high) : low ≤ x ∧ x ≤ high := by
  obtain ⟨⟨a, ha, hax⟩, b, hb, hxb⟩ := h
  exact ⟨Exact.le_trans (hc a ha).1 hax, Exact.le_trans hxb (hc b hb).2⟩

end Exact.Within

/-- The weighted mean of two numbers lies between them. -/
theorem weightedMean_mem {v w : Rat} (hv : 0 ≤ v) (hw : 0 ≤ w) (hpos : 0 < v + w) (a b : Rat) :
    min a b ≤ (v * a + w * b) / (v + w) ∧ (v * a + w * b) / (v + w) ≤ max a b := by
  have hlow : min a b * (v + w) ≤ v * a + w * b := by
    have := mul_le_mul_of_nonneg_left (min_le_left a b) hv
    have := mul_le_mul_of_nonneg_left (min_le_right a b) hw
    linarith
  have hhigh : v * a + w * b ≤ max a b * (v + w) := by
    have := mul_le_mul_of_nonneg_left (le_max_left a b) hv
    have := mul_le_mul_of_nonneg_left (le_max_right a b) hw
    linarith
  exact ⟨(le_div_iff₀ hpos).mpr hlow, (div_le_iff₀ hpos).mpr hhigh⟩

namespace Curve

section Segment
variable {α : Type} [Scalar α]

/-- The two knots between which `heldFrom` interpolates, where it does so. -/
def segmentFrom (p : Knot α) (x : α) : List (Knot α) → Option (Knot α × Knot α)
  | [] => none
  | q :: rest =>
    if q.x ≤ x then segmentFrom q x rest
    else if p.x == x then none
    else some (p, q)

/-- The two knots between which `held` interpolates, where it does so. -/
def segment (c : Curve α) (x : α) : Option (Knot α × Knot α) :=
  if Scalar.isUndefined x || decide (c.last.x < x) || decide (x < c.first.x) then none
  else segmentFrom c.first x c.rest

/-- What `held` divides by at `x`, if it divides. -/
def divisor (c : Curve α) (x : α) : Option α := (c.segment x).map fun (p, q) => q.x - p.x

theorem heldFrom_of_segmentFrom {p q r : Knot α} {x : α} {l : List (Knot α)}
    (h : segmentFrom p x l = some (q, r)) :
    heldFrom p x l = between q r x ∧ q ∈ p :: l ∧ r ∈ p :: l := by
  induction l generalizing p with
  | nil => cases h
  | cons k l ih =>
    rw [segmentFrom] at h
    rw [heldFrom]
    by_cases hk : k.x ≤ x
    · rw [if_pos hk] at h ⊢
      obtain ⟨hheld, hq, hr⟩ := ih h
      exact ⟨hheld, List.mem_cons_of_mem p hq, List.mem_cons_of_mem p hr⟩
    · rw [if_neg hk] at h ⊢
      by_cases hp : p.x == x
      · rw [if_pos hp] at h
        cases h
      · rw [if_neg hp] at h ⊢
        cases h
        exact ⟨rfl, by simp, by simp⟩

theorem heldFrom_of_segmentFrom_eq_none {p : Knot α} {x : α} {l : List (Knot α)}
    (h : segmentFrom p x l = none) : ∃ k ∈ p :: l, heldFrom p x l = k.y := by
  induction l generalizing p with
  | nil => exact ⟨p, by simp, rfl⟩
  | cons q l ih =>
    rw [segmentFrom] at h
    rw [heldFrom]
    by_cases hq : q.x ≤ x
    · rw [if_pos hq] at h ⊢
      obtain ⟨k, hk, hheld⟩ := ih h
      exact ⟨k, List.mem_cons_of_mem p hk, hheld⟩
    · rw [if_neg hq] at h ⊢
      by_cases hp : p.x == x
      · rw [if_pos hp]
        exact ⟨p, by simp, rfl⟩
      · rw [if_neg hp] at h
        cases h

omit [Scalar α] in
theorem last_eq_getLast (c : Curve α) : c.last = c.knots.getLast (List.cons_ne_nil _ _) :=
  (List.getLast_eq_getLastD _).symm

omit [Scalar α] in
theorem last_mem (c : Curve α) : c.last ∈ c.knots := by
  rw [last_eq_getLast]
  exact List.getLast_mem _

theorem held_of_segment {c : Curve α} {x : α} {p q : Knot α} (h : c.segment x = some (p, q)) :
    c.held x = between p q x ∧ p ∈ c.knots ∧ q ∈ c.knots := by
  unfold segment at h
  split at h
  · cases h
  · rename_i hx
    simp only [Bool.or_eq_true, decide_eq_true_eq, not_or, Bool.not_eq_true] at hx
    obtain ⟨⟨hu, hlast⟩, hfirst⟩ := hx
    rw [held, hu, if_neg Bool.false_ne_true, if_neg hlast, if_neg hfirst]
    exact heldFrom_of_segmentFrom h

/-- Where `held` does not interpolate, it takes the value of a knot. -/
theorem held_of_segment_eq_none {c : Curve α} {x : α} (hx : Scalar.isUndefined x = false)
    (h : c.segment x = none) : ∃ k ∈ c.knots, c.held x = k.y := by
  rw [held, hx, if_neg Bool.false_ne_true]
  split
  · exact ⟨c.last, c.last_mem, rfl⟩
  · rename_i hlast
    split
    · exact ⟨c.first, List.mem_cons_self, rfl⟩
    · rename_i hfirst
      unfold segment at h
      simp only [hx, hlast, hfirst, decide_false, Bool.or_false, Bool.false_eq_true,
        if_false] at h
      exact heldFrom_of_segmentFrom_eq_none h

end Segment

variable {c : Curve Exact} {p q k : Knot Exact} {l : List (Knot Exact)}

/-- The knots around an argument enclose it. -/
theorem segmentFrom_enclose (hl : ∀ k ∈ p :: l, k.IsRational) {x : Rat}
    (hp : p.x ≤ .value x) {r : Knot Exact} (h : segmentFrom p (.value x) l = some (q, r)) :
    q.x < .value x ∧ Exact.value x < r.x := by
  induction l generalizing p with
  | nil => cases h
  | cons k l ih =>
    rw [segmentFrom] at h
    by_cases hk : k.x ≤ .value x
    · rw [if_pos hk] at h
      exact ih (fun k hk => hl k (List.mem_cons_of_mem p hk)) hk h
    · rw [if_neg hk] at h
      by_cases heq : p.x == .value x
      · rw [if_pos heq] at h
        cases h
      · rw [if_neg heq] at h
        cases h
        obtain ⟨a, b, rfl⟩ := hl q (by simp)
        obtain ⟨a', b', rfl⟩ := hl r (by simp)
        rw [Exact.value_le, not_le] at hk
        rw [Exact.value_le] at hp
        rw [Exact.value_beq, decide_eq_true_iff] at heq
        exact ⟨(Exact.value_lt a x).mpr (lt_of_le_of_ne hp heq), (Exact.value_lt x a').mpr hk⟩

theorem segment_enclose (hc : ∀ k ∈ c.knots, k.IsRational) {x : Rat}
    (h : c.segment (.value x) = some (p, q)) : p.x < .value x ∧ Exact.value x < q.x := by
  unfold segment at h
  split at h
  · cases h
  · rename_i hx
    simp only [Bool.or_eq_true, decide_eq_true_eq, not_or] at hx
    have hfirst : c.first.x ≤ .value x := by
      obtain ⟨a, b, hk⟩ := hc c.first List.mem_cons_self
      rw [hk, Exact.value_lt, not_lt] at hx
      rw [hk, Exact.value_le]
      exact hx.2
    exact segmentFrom_enclose hc hfirst h

/-- A held curve through rational knots divides by positive numbers only. -/
theorem divisor_pos (hc : ∀ k ∈ c.knots, k.IsRational) {x : Rat} {d : Exact}
    (h : c.divisor (.value x) = some d) : .value 0 < d := by
  obtain ⟨⟨p, q⟩, hseg, rfl⟩ := Option.map_eq_some_iff.mp h
  obtain ⟨hpx, hxq⟩ := segment_enclose hc hseg
  obtain ⟨a, b, hp, hq, hlt⟩ := Exact.lt_iff.mp (Exact.lt_trans hpx hxq)
  simp only [hp, hq, Exact.value_sub, Exact.value_lt]
  exact sub_pos.mpr hlt

/-- The line between two points is their weighted mean. -/
theorem between_value {a b a' b' x : Rat} (h : a < a') :
    between ⟨Exact.value a, Exact.value b⟩ ⟨Exact.value a', Exact.value b'⟩ (Exact.value x) =
      Exact.value (((a' - x) * b + (x - a) * b') / (a' - x + (x - a))) := by
  have hne : a' - a ≠ 0 := sub_ne_zero.mpr h.ne'
  have hmean : (b' - b) / (a' - a) * (x - a) + b =
      ((a' - x) * b + (x - a) * b') / (a' - x + (x - a)) := by
    rw [show a' - x + (x - a) = a' - a by ring, eq_div_iff hne, add_mul, mul_right_comm,
      div_mul_cancel₀ _ hne]
    ring
  unfold between
  rw [line_value h, hmean]
  rfl

/-- A held curve stays in the range of its knots. -/
theorem held_within (hc : ∀ k ∈ c.knots, k.IsRational) (x : Rat) :
    Exact.Within (c.knots.map Knot.y) (c.held (.value x)) := by
  cases hseg : c.segment (.value x) with
  | none =>
    obtain ⟨k, hk, hheld⟩ := held_of_segment_eq_none rfl hseg
    obtain ⟨a, b, rfl⟩ := hc k hk
    rw [hheld]
    exact .of_mem (List.mem_map.mpr ⟨_, hk, rfl⟩)
  | some ends =>
    obtain ⟨p, q⟩ := ends
    obtain ⟨hheld, hp, hq⟩ := held_of_segment hseg
    obtain ⟨hpx, hxq⟩ := segment_enclose hc hseg
    obtain ⟨a, b, rfl⟩ := hc p hp
    obtain ⟨a', b', rfl⟩ := hc q hq
    rw [Exact.value_lt] at hpx hxq
    rw [hheld, between_value (hpx.trans hxq)]
    have hmean := weightedMean_mem (sub_pos.mpr hxq).le (sub_pos.mpr hpx).le
      (by linarith) b b'
    exact .of_between (List.mem_map.mpr ⟨_, hp, rfl⟩) (List.mem_map.mpr ⟨_, hq, rfl⟩)
      hmean.1 hmean.2

end Curve
end BlackOil

import BlackOil.Proofs.Curve.Extended
import Mathlib.Algebra.Order.Ring.Abs
import Mathlib.Tactic.Ring

/-!
# Curves segment by segment

An extended curve follows its first segment up to the second knot, and beyond it the curve
through the knots that remain. So a relation that can be chained holds between any two
points of a curve if it holds between any two points of one segment. In this way a curve
with rising knots rises strictly everywhere, and no curve is steeper than its steepest
segment.
-/
namespace BlackOil
namespace Curve
variable {c : Curve Exact} {p q r : Knot Exact} {l : List (Knot Exact)}

theorem extended_of_precedes {x : Exact} (h : precedes q.x x) :
    extended ⟨p, q :: r :: l⟩ x = extended ⟨q, r :: l⟩ x := by
  simp only [extended, bracket, if_pos h]

theorem extended_of_not_precedes {x : Exact} (h : ¬precedes q.x x) :
    extended ⟨p, q :: l⟩ x = line p q x := by
  cases l with
  | nil => rfl
  | cons r l => simp only [extended, bracket, if_neg h]

/-- Two neighbouring knots. -/
inductive IsSegment : Curve Exact → Knot Exact → Knot Exact → Prop
  | first {p q : Knot Exact} {l : List (Knot Exact)} : IsSegment ⟨p, q :: l⟩ p q
  | later {p q a b : Knot Exact} {l : List (Knot Exact)} :
      IsSegment ⟨q, l⟩ a b → IsSegment ⟨p, q :: l⟩ a b

theorem IsSegment.mem {a b : Knot Exact} (h : c.IsSegment a b) : a ∈ c.knots ∧ b ∈ c.knots := by
  induction h with
  | first => simp [knots]
  | later _ ih => exact ⟨List.mem_cons_of_mem _ ih.1, List.mem_cons_of_mem _ ih.2⟩

/-- What holds of all knots in their order holds of neighbours. -/
theorem IsSegment.of_pairwise {a b : Knot Exact} {R : Knot Exact → Knot Exact → Prop}
    (h : c.IsSegment a b) (hR : c.knots.Pairwise R) : R a b := by
  induction h with
  | first => exact List.rel_of_pairwise_cons hR List.mem_cons_self
  | later _ ih => exact ih (List.pairwise_cons.mp hR).2

namespace Strict

theorem tail (h : Strict ⟨p, q :: l⟩) : Strict ⟨q, l⟩ where
  rational k hk := h.rational k (List.mem_cons_of_mem p hk)
  increasing := (List.pairwise_cons.mp h.increasing).2

/-- A relation that can be chained and holds along every segment holds along the curve. -/
theorem along {R : Rat × Rat → Rat × Rat → Prop} (htrans : ∀ {u v w}, R u v → R v w → R u w)
    (h : Strict ⟨p, q :: l⟩)
    (hline : ∀ {a b : Knot Exact}, IsSegment ⟨p, q :: l⟩ a b → ∀ {x y x' y' : Rat}, x < x' →
      line a b (.value x) = .value y → line a b (.value x') = .value y' → R (x, y) (x', y'))
    {x y x' y' : Rat} (hx : x < x') (hy : extended ⟨p, q :: l⟩ (.value x) = .value y)
    (hy' : extended ⟨p, q :: l⟩ (.value x') = .value y') : R (x, y) (x', y') := by
  induction l generalizing p q x y with
  | nil => exact hline .first hx hy hy'
  | cons r l ih =>
    obtain ⟨a, b, rfl⟩ := h.rational q (by simp [knots])
    have hend : line p ⟨.value a, .value b⟩ (.value a) = .value b :=
      line_right (h.rational p (by simp [knots])) ⟨a, b, rfl⟩
        (IsSegment.first.of_pairwise h.increasing)
    have hstart : extended ⟨⟨.value a, .value b⟩, r :: l⟩ (.value a) = .value b :=
      h.tail.extended_of_mem (k := ⟨.value a, .value b⟩) (by simp [knots])
    have htail := @ih ⟨.value a, .value b⟩ r h.tail fun hs => hline (.later hs)
    by_cases hbeyond' : a < x'
    · rw [extended_of_precedes (by simpa using hbeyond')] at hy'
      by_cases hbeyond : a < x
      · rw [extended_of_precedes (by simpa using hbeyond)] at hy
        exact htail hx hy hy'
      · -- the knot at `a` lies between the two points or is the first of them
        rw [extended_of_not_precedes (by simpa using hbeyond)] at hy
        obtain hlt | rfl := lt_or_eq_of_le (not_lt.mp hbeyond)
        · exact htrans (hline .first hlt hy hend) (htail hbeyond' hstart hy')
        · obtain rfl : y = b := Exact.value.inj (hy.symm.trans hend)
          exact htail hx hstart hy'
    · have hbefore : ¬a < x := fun hlt => hbeyond' (hlt.trans hx)
      rw [extended_of_not_precedes (by simpa using hbefore)] at hy
      rw [extended_of_not_precedes (by simpa using hbeyond')] at hy'
      exact hline .first hx hy hy'

/-- A curve that rises from knot to knot rises everywhere. -/
theorem extended_lt_extended (h : c.Strict) (hrise : c.knots.Pairwise fun p q => p.y < q.y)
    (hrest : c.rest ≠ []) {x x' : Exact} (hx : x < x') : c.extended x < c.extended x' := by
  obtain ⟨x, x', rfl, rfl, hlt⟩ := Exact.lt_iff.mp hx
  obtain ⟨y, hy⟩ := h.exists_extended_value x
  obtain ⟨y', hy'⟩ := h.exists_extended_value x'
  rw [hy, hy', Exact.value_lt]
  obtain ⟨p, _ | ⟨q, l⟩⟩ := c
  · exact absurd rfl hrest
  · refine h.along (R := fun u v => u.2 < v.2) (fun huv hvw => huv.trans hvw) ?_ hlt hy hy'
    intro a b hs x y x' y' hlt hy hy'
    have habove := line_lt_line (h.rational a hs.mem.1) (h.rational b hs.mem.2)
      (hs.of_pairwise h.increasing) (hs.of_pairwise hrise) ((Exact.value_lt x x').mpr hlt)
    rwa [hy, hy', Exact.value_lt] at habove

theorem extended_lt_extended_iff (h : c.Strict) (hrise : c.knots.Pairwise fun p q => p.y < q.y)
    (hrest : c.rest ≠ []) {x x' : Rat} :
    c.extended (.value x) < c.extended (.value x') ↔ x < x' := by
  have hmono := @extended_lt_extended c h hrise hrest
  constructor
  · intro hlt
    by_contra hge
    obtain hlt' | rfl := lt_or_eq_of_le (not_lt.mp hge)
    · exact Exact.lt_irrefl _ (Exact.lt_trans hlt (hmono ((Exact.value_lt x' x).mpr hlt')))
    · exact Exact.lt_irrefl _ hlt
  · exact fun hlt => hmono ((Exact.value_lt x x').mpr hlt)

/-- The segments of a curve have a greatest slope. -/
theorem exists_slope_of_segments (h : c.Strict) : ∃ K : Rat, 0 ≤ K ∧ ∀ {p q}, c.IsSegment p q →
    ∀ {a b a' b' : Rat}, p = ⟨.value a, .value b⟩ → q = ⟨.value a', .value b'⟩ →
      |(b' - b) / (a' - a)| ≤ K := by
  obtain ⟨p, rest⟩ := c
  induction rest generalizing p with
  | nil => exact ⟨0, le_rfl, nofun⟩
  | cons q l ih =>
    obtain ⟨K, hK, hlater⟩ := ih q h.tail
    obtain ⟨a, b, rfl⟩ := h.rational p (by simp [knots])
    obtain ⟨a', b', rfl⟩ := h.rational q (by simp [knots])
    refine ⟨max K |(b' - b) / (a' - a)|, le_max_of_le_left hK, ?_⟩
    intro p q hs a₁ b₁ a₂ b₂ hp hq
    cases hs with
    | first =>
      cases hp
      cases hq
      exact le_max_right _ _
    | later hs => exact (hlater hs hp hq).trans (le_max_left _ _)

/-- No two points of a curve are steeper apart than its steepest segment. -/
theorem exists_slope (h : c.Strict) : ∃ K : Rat, 0 ≤ K ∧ ∀ {x y x' y' : Rat},
    c.extended (.value x) = .value y → c.extended (.value x') = .value y' →
      |y' - y| ≤ K * |x' - x| := by
  obtain ⟨K, hK, hslope⟩ := h.exists_slope_of_segments
  refine ⟨K, hK, ?_⟩
  obtain ⟨p, _ | ⟨q, l⟩⟩ := c
  · intro x y x' y' hy hy'
    obtain rfl : y = y' := Exact.value.inj (hy.symm.trans hy')
    rw [sub_self, abs_zero]
    exact mul_nonneg hK (abs_nonneg _)
  · have hrise : ∀ {x y x' y' : Rat}, x < x' → extended ⟨p, q :: l⟩ (.value x) = .value y →
        extended ⟨p, q :: l⟩ (.value x') = .value y' → |y' - y| ≤ K * (x' - x) := by
      refine h.along (R := fun u v => |v.2 - u.2| ≤ K * (v.1 - u.1)) ?_ ?_
      · intro u v w huv hvw
        have htriangle := abs_sub_le w.2 v.2 u.2
        linarith
      · intro a b hs x y x' y' hlt hy hy'
        obtain ⟨a₁, b₁, rfl⟩ := h.rational a hs.mem.1
        obtain ⟨a₂, b₂, rfl⟩ := h.rational b hs.mem.2
        have ha := (Exact.value_lt a₁ a₂).mp (hs.of_pairwise h.increasing)
        rw [line_value ha, Exact.value.injEq] at hy hy'
        have hdiff : y' - y = (b₂ - b₁) / (a₂ - a₁) * (x' - x) := by
          rw [← hy, ← hy']
          ring
        have hpos := sub_pos.mpr hlt
        rw [hdiff, abs_mul, abs_of_pos hpos]
        exact mul_le_mul_of_nonneg_right (hslope hs rfl rfl) hpos.le
    intro x y x' y' hy hy'
    obtain hlt | rfl | hlt := lt_trichotomy x x'
    · rw [abs_of_pos (sub_pos.mpr hlt)]
      exact hrise hlt hy hy'
    · obtain rfl : y = y' := Exact.value.inj (hy.symm.trans hy')
      simp
    · rw [abs_sub_comm, abs_sub_comm x', abs_of_pos (sub_pos.mpr hlt)]
      exact hrise hlt hy' hy

end Strict
end Curve
end BlackOil

import BlackOil.Proofs.Curve.Held

/-!
# Monotone held curves

A held curve whose abscissae never fall goes from the first value of its knots to the last one
along the lines between neighbours, with a jump where knots share an abscissa. So what holds
between the values of any two knots in their order holds between any two points of the curve,
provided that it can be chained and that lines inherit it from their ends. In this way a curve
through values that never fall never falls, and the same of values that never rise. The curve
passes through every knot that no later knot at its abscissa replaces.
-/
namespace BlackOil

namespace Curve
variable {c : Curve Exact} {p q k : Knot Exact} {l : List (Knot Exact)} {R : Rat → Rat → Prop}

/-- The value at `x` of the line through two points. -/
def lineValue (a b a' b' x : Rat) : Rat := (b' - b) / (a' - a) * (x - a) + b

theorem lineValue_left (a b a' b' : Rat) : lineValue a b a' b' a = b := by
  rw [lineValue, sub_self, mul_zero, zero_add]

theorem lineValue_right {a a' : Rat} (h : a < a') (b b' : Rat) : lineValue a b a' b' a' = b' := by
  rw [lineValue, div_mul_cancel₀ _ (sub_ne_zero.mpr h.ne'), sub_add_cancel]

/-- An order of numbers that the points of a line inherit from its ends. -/
structure AlongLines (R : Rat → Rat → Prop) : Prop where
  refl : ∀ b, R b b
  trans : ∀ {b b' b''}, R b b' → R b' b'' → R b b''
  line : ∀ {a b a' b' x x' : Rat}, a < a' → R b b' → x ≤ x' →
    R (lineValue a b a' b' x) (lineValue a b a' b' x')

theorem alongLines_le : AlongLines (· ≤ ·) where
  refl _ := le_rfl
  trans := le_trans
  line h hb hx := by
    have hslope := div_nonneg (sub_nonneg.mpr hb) (sub_pos.mpr h).le
    exact add_le_add_left (mul_le_mul_of_nonneg_left (sub_le_sub_right hx _) hslope) _

theorem alongLines_ge : AlongLines (fun b b' => b' ≤ b) where
  refl _ := le_rfl
  trans h h' := le_trans h' h
  line h hb hx := by
    have hslope := div_nonpos_of_nonpos_of_nonneg (sub_nonpos.mpr hb) (sub_pos.mpr h).le
    exact add_le_add_left (mul_le_mul_of_nonpos_left (sub_le_sub_right hx _) hslope) _

theorem AlongLines.compare_trans (hR : AlongLines R) {x y z : Exact} (h : Exact.Compare R x y)
    (h' : Exact.Compare R y z) : Exact.Compare R x z := by
  cases x with
  | undefined => exact h
  | value a => cases y with
    | undefined => exact absurd h id
    | value b => cases z with
      | undefined => exact h'
      | value c => exact hR.trans h h'

theorem AlongLines.compare_self (hR : AlongLines R) (hk : k.IsRational) :
    Exact.Compare R k.y k.y := by
  obtain ⟨a, b, rfl⟩ := hk
  exact hR.refl b

/-- Before the next knot a held curve follows the line to it. -/
theorem heldFrom_value {a b a' b' x : Rat} (ha : a ≤ x) (hx : x < a') :
    heldFrom ⟨.value a, .value b⟩ (.value x) (⟨.value a', .value b'⟩ :: l) =
      .value (lineValue a b a' b' x) := by
  rw [heldFrom, if_neg (by simpa using hx)]
  obtain hlt | rfl := ha.lt_or_eq
  · have hne : ¬(Exact.value a == .value x) := by simpa [Exact.value_beq] using hlt.ne
    rw [if_neg hne, between, line_value (ha.trans_lt hx)]
    rfl
  · rw [if_pos (Exact.beq_self_iff.mpr ⟨a, rfl⟩), lineValue_left]

theorem heldFrom_eq_last {x : Exact} (h : ∀ k ∈ l, k.x ≤ x) :
    heldFrom p x l = (l.getLastD p).y := by
  induction l generalizing p with
  | nil => rfl
  | cons q l ih =>
    rw [heldFrom, if_pos (h q List.mem_cons_self), List.getLastD_cons]
    exact ih fun k hk => h k (List.mem_cons_of_mem q hk)

/-- The knots are rational points whose abscissae never fall. -/
structure Ordered (c : Curve Exact) : Prop where
  rational : ∀ k ∈ c.knots, k.IsRational
  rising : c.knots.Pairwise fun p q => p.x ≤ q.x

namespace Ordered

theorem tail (h : Ordered ⟨p, q :: l⟩) : Ordered ⟨q, l⟩ where
  rational k hk := h.rational k (List.mem_cons_of_mem p hk)
  rising := (List.pairwise_cons.mp h.rising).2

theorem le_last (h : c.Ordered) (hk : k ∈ c.knots) : k.x ≤ c.last.x := by
  have hsplit : c.knots.dropLast ++ [c.last] = c.knots := by
    rw [last_eq_getLast]
    exact List.dropLast_concat_getLast _
  have hrising := h.rising
  rw [← hsplit, List.pairwise_append] at hrising
  rw [← hsplit, List.mem_append, List.mem_singleton] at hk
  obtain hk | rfl := hk
  · exact hrising.2.2 k hk _ (List.mem_singleton_self _)
  · obtain ⟨a, b, hlast⟩ := h.rational _ c.last_mem
    rw [hlast]
    exact (Exact.value_le a a).mpr le_rfl

theorem first_le (h : c.Ordered) (hk : k ∈ c.knots) : c.first.x ≤ k.x := by
  obtain rfl | hk := List.mem_cons.mp hk
  · obtain ⟨a, b, hfirst⟩ := h.rational _ (List.mem_cons_self (a := c.first))
    rw [hfirst]
    exact (Exact.value_le a a).mpr le_rfl
  · exact List.rel_of_pairwise_cons h.rising hk

/-- The curve is held behind its last knot as it is held behind any other. -/
theorem held_value (h : c.Ordered) (x : Rat) : c.held (.value x) =
    if .value x < c.first.x then c.first.y else heldFrom c.first (.value x) c.rest := by
  rw [held, Exact.isUndefined_value, if_neg Bool.false_ne_true]
  split
  · rename_i hlast
    have hle : ∀ k ∈ c.knots, k.x ≤ .value x :=
      fun k hk => Exact.le_trans (h.le_last hk) (Exact.le_of_lt hlast)
    rw [if_neg fun hlt => Exact.not_le_of_lt hlt (hle _ List.mem_cons_self),
      heldFrom_eq_last fun k hk => hle k (List.mem_cons_of_mem _ hk), last]
  · rfl

/-- A curve starts from the value of its first knot. -/
theorem along_first (hR : AlongLines R) (h : Ordered ⟨p, l⟩)
    (hy : (p :: l).Pairwise fun p q => Exact.Compare R p.y q.y) {x : Rat} (hx : p.x ≤ .value x) :
    Exact.Compare R p.y (heldFrom p (.value x) l) := by
  induction l generalizing p with
  | nil => exact hR.compare_self (h.rational p List.mem_cons_self)
  | cons q l ih =>
    have hpq := List.rel_of_pairwise_cons hy List.mem_cons_self
    by_cases hq : q.x ≤ .value x
    · rw [heldFrom, if_pos hq]
      exact hR.compare_trans hpq (ih h.tail (List.pairwise_cons.mp hy).2 hq)
    · obtain ⟨a, b, rfl⟩ := h.rational p (by simp [knots])
      obtain ⟨a', b', rfl⟩ := h.rational q (by simp [knots])
      rw [Exact.value_le] at hx hq
      have hlt := not_le.mp hq
      have hline := hR.line (hx.trans_lt hlt) hpq hx
      rw [lineValue_left] at hline
      rwa [heldFrom_value hx hlt]

theorem along_heldFrom (hR : AlongLines R) (h : Ordered ⟨p, l⟩)
    (hy : (p :: l).Pairwise fun p q => Exact.Compare R p.y q.y) {x x' : Rat} (hle : x ≤ x')
    (hx : p.x ≤ .value x) :
    Exact.Compare R (heldFrom p (.value x) l) (heldFrom p (.value x') l) := by
  induction l generalizing p with
  | nil => exact hR.compare_self (h.rational p List.mem_cons_self)
  | cons q l ih =>
    have hrest := (List.pairwise_cons.mp hy).2
    have hpq := List.rel_of_pairwise_cons hy List.mem_cons_self
    obtain ⟨a, b, rfl⟩ := h.rational p (by simp [knots])
    obtain ⟨a', b', rfl⟩ := h.rational q (by simp [knots])
    rw [Exact.value_le] at hx
    by_cases hq : a' ≤ x
    · rw [heldFrom, heldFrom, if_pos ((Exact.value_le a' x).mpr hq),
        if_pos ((Exact.value_le a' x').mpr (hq.trans hle))]
      exact ih h.tail hrest ((Exact.value_le a' x).mpr hq)
    · have hlt := not_le.mp hq
      have hline : ∀ {x''}, x ≤ x'' → R (lineValue a b a' b' x) (lineValue a b a' b' x'') :=
        hR.line (hx.trans_lt hlt) hpq
      rw [heldFrom_value hx hlt]
      by_cases hq' : a' ≤ x'
      · -- the two points lie on either side of the second knot
        have hjoin : R (lineValue a b a' b' x) b' := by
          simpa only [lineValue_right (hx.trans_lt hlt)] using hline hlt.le
        rw [heldFrom, if_pos ((Exact.value_le a' x').mpr hq')]
        exact hR.compare_trans (y := .value b') hjoin
          (along_first hR h.tail hrest ((Exact.value_le a' x').mpr hq'))
      · rw [heldFrom_value (hx.trans hle) (not_le.mp hq')]
        exact hline hle

/-- What holds between the values of the knots in their order, and is inherited along lines,
holds between any two points of a held curve. -/
theorem held_along (hR : AlongLines R) (h : c.Ordered)
    (hy : c.knots.Pairwise fun p q => Exact.Compare R p.y q.y) {x x' : Rat} (hle : x ≤ x') :
    Exact.Compare R (c.held (.value x)) (c.held (.value x')) := by
  obtain ⟨a, b, hfirst⟩ := h.rational c.first List.mem_cons_self
  have hbegin : ∀ {y : Rat}, ¬Exact.value y < c.first.x → c.first.x ≤ .value y := by
    intro y hy
    rw [hfirst, Exact.value_lt, not_lt] at hy
    rwa [hfirst, Exact.value_le]
  rw [h.held_value, h.held_value]
  by_cases hx' : .value x' < c.first.x
  · have hx : .value x < c.first.x := by
      rw [hfirst, Exact.value_lt] at hx' ⊢
      exact hle.trans_lt hx'
    rw [if_pos hx, if_pos hx']
    exact hR.compare_self (h.rational _ List.mem_cons_self)
  · rw [if_neg hx']
    split
    · exact along_first hR h hy (hbegin hx')
    · rename_i hx
      exact along_heldFrom hR h hy hle (hbegin hx)

theorem heldFrom_of_split (h : Ordered ⟨p, l⟩) {before after : List (Knot Exact)}
    (hsplit : p :: l = before ++ k :: after) (hlast : ∀ q ∈ after, q.x ≠ k.x) :
    heldFrom p k.x l = k.y := by
  obtain ⟨a, b, hk⟩ := h.rational k (by simp [knots, hsplit])
  have hself : k.x ≤ k.x ∧ (k.x == k.x) = true := by
    rw [hk]
    exact ⟨(Exact.value_le a a).mpr le_rfl, Exact.beq_self_iff.mpr ⟨a, rfl⟩⟩
  induction l generalizing p before with
  | nil =>
    obtain ⟨rfl, hp⟩ | ⟨_, -, hnil⟩ := List.cons_eq_append_iff.mp hsplit
    · rw [(List.cons.inj hp).1]
      rfl
    · simp at hnil
  | cons q l ih =>
    rw [heldFrom]
    obtain ⟨rfl, hp⟩ | ⟨before, rfl, htail⟩ := List.cons_eq_append_iff.mp hsplit
    · -- the knots behind `k` lie at other abscissae, hence beyond it
      obtain ⟨rfl, rfl⟩ := List.cons.inj hp
      have hbeyond : ¬q.x ≤ k.x := by
        have hle := List.rel_of_pairwise_cons h.rising List.mem_cons_self
        have hne := hlast q List.mem_cons_self
        exact Exact.not_le_of_lt (Exact.lt_of_le_of_ne hle hne.symm)
      rw [if_neg hbeyond, if_pos hself.2]
    · have hle : q.x ≤ k.x := by
        have hmem : k ∈ q :: l := by simp [htail]
        obtain rfl | hmem := List.mem_cons.mp hmem
        · exact hself.1
        · exact List.rel_of_pairwise_cons h.tail.rising hmem
      rw [if_pos hle]
      exact ih h.tail htail

/-- Of knots that share an abscissa the last one counts. -/
theorem held_of_split (h : c.Ordered) {before after : List (Knot Exact)}
    (hsplit : c.knots = before ++ k :: after) (hlast : ∀ q ∈ after, q.x ≠ k.x) :
    c.held k.x = k.y := by
  have hk : k ∈ c.knots := by simp [hsplit]
  obtain ⟨a, b, hab⟩ := h.rational k hk
  have hx : k.x = .value a := by rw [hab]
  have hfirst : ¬.value a < c.first.x := by
    rw [← hx]
    exact fun hlt => Exact.not_le_of_lt hlt (h.first_le hk)
  rw [hx, h.held_value, if_neg hfirst, ← hx]
  exact heldFrom_of_split h hsplit hlast

end Ordered
end Curve
end BlackOil

import BlackOil.Proofs.Scalar.Exact

/-!
# Extended curves

A value is looked up between two neighbours of a sequence of increasing keys. The curve
through rational knots of strictly increasing abscissae, continued along its first and last
segment, has a rational value everywhere, passes through its knots, and rises if its knots
do.
-/
namespace BlackOil

section Bracket
variable {α β γ : Type} [Scalar α]

/-- The bracket of `x` consists of two neighbours. Whatever comes before them has led to a
key that precedes `x`, and whatever comes after them is cut off by one that does not. -/
theorem exists_bracket_eq (key : β → α) (x : α) (p q : β) (l : List β) :
    ∃ before lower upper after, bracket key x p q l = (lower, upper) ∧
      p :: q :: l = before ++ lower :: upper :: after ∧
      (before = [] ∨ precedes (key lower) x) ∧ (after = [] ∨ ¬precedes (key upper) x) := by
  induction l generalizing p q with
  | nil => exact ⟨[], p, q, [], rfl, rfl, .inl rfl, .inl rfl⟩
  | cons r l ih =>
    by_cases hq : precedes (key q) x
    · obtain ⟨before, lower, upper, after, hb, hsplit, hbefore, hafter⟩ := ih q r
      refine ⟨p :: before, lower, upper, after, ?_, congrArg (p :: ·) hsplit, ?_, hafter⟩
      · rw [bracket, if_pos hq, hb]
      · cases before with
        | nil =>
          rw [List.nil_append, List.cons.injEq] at hsplit
          exact .inr (hsplit.1 ▸ hq)
        | cons b before => exact .inr (hbefore.resolve_left (List.cons_ne_nil b before))
    · exact ⟨[], p, q, r :: l, by rw [bracket, if_neg hq], rfl, .inl rfl, .inr hq⟩

theorem bracket_mem (key : β → α) (x : α) {p q : β} {l : List β} :
    (bracket key x p q l).1 ∈ p :: q :: l ∧ (bracket key x p q l).2 ∈ p :: q :: l := by
  obtain ⟨before, lower, upper, after, hb, hsplit, -⟩ := exists_bracket_eq key x p q l
  rw [hb, hsplit]
  simp

/-- The bracket depends on the key only through what precedes the value looked up. -/
theorem bracket_congr {key key' : β → α} {x x' : α} {p q : β} {l : List β}
    (h : ∀ r ∈ q :: l, precedes (key r) x = precedes (key' r) x') :
    bracket key x p q l = bracket key' x' p q l := by
  induction l generalizing p q with
  | nil => rfl
  | cons r l ih =>
    rw [bracket, bracket, h q List.mem_cons_self]
    split
    · exact ih fun s hs => h s (List.mem_cons_of_mem q hs)
    · rfl

theorem bracket_map (key : β → α) (f : γ → β) (x : α) (p q : γ) (l : List γ) :
    bracket key x (f p) (f q) (l.map f) = (bracket (key ∘ f) x p q l).map f f := by
  induction l generalizing p q with
  | nil => rfl
  | cons r l ih =>
    rw [List.map_cons, bracket, bracket, ih]
    by_cases hq : precedes (key (f q)) x
    · rw [if_pos hq, if_pos (show precedes ((key ∘ f) q) x from hq)]
    · rw [if_neg hq, if_neg (show ¬precedes ((key ∘ f) q) x from hq)]
      rfl

end Bracket

section Keys
variable {β : Type} {key : β → Exact} {p q : β} {l : List β}

theorem bracket_lt (hkey : (p :: q :: l).Pairwise fun a b => key a < key b) (x : Exact) :
    key (bracket key x p q l).1 < key (bracket key x p q l).2 := by
  obtain ⟨before, lower, upper, after, hb, hsplit, -⟩ := exists_bracket_eq key x p q l
  rw [hsplit, List.pairwise_append] at hkey
  rw [hb]
  exact List.rel_of_pairwise_cons hkey.2.1 List.mem_cons_self

/-- A member of the sequence is found between itself and a neighbour. -/
theorem eq_or_eq_of_bracket (hkey : (p :: q :: l).Pairwise fun a b => key a < key b) {k : β}
    (hk : k ∈ p :: q :: l) :
    k = (bracket key (key k) p q l).1 ∨ k = (bracket key (key k) p q l).2 := by
  obtain ⟨before, lower, upper, after, hb, hsplit, hbefore, hafter⟩ :=
    exists_bracket_eq key (key k) p q l
  have hprecedes : ∀ {a b : β}, key a < key b → precedes (key a) (key b) = true := by
    intro a b hlt
    simp [precedes, hlt]
  rw [hsplit, List.pairwise_append] at hkey
  obtain ⟨-, hpair, hcross⟩ := hkey
  rw [hsplit, List.mem_append, List.mem_cons, List.mem_cons] at hk
  rw [hb]
  obtain hk | hk | hk | hk := hk
  · -- the key of the lower neighbour precedes that of `k`, which comes before it
    have hlt := hcross k hk lower List.mem_cons_self
    have hne : before ≠ [] := List.ne_nil_of_mem hk
    have hback := hbefore.resolve_left hne
    obtain ⟨a, b, ha, hb, hab⟩ := Exact.lt_iff.mp hlt
    rw [ha, hb, Exact.precedes_value, decide_eq_true_iff] at hback
    exact absurd hback (not_lt.mpr hab.le)
  · exact .inl hk
  · exact .inr hk
  · have hlt := List.rel_of_pairwise_cons (List.pairwise_cons.mp hpair).2 hk
    exact absurd (hprecedes hlt) (hafter.resolve_left (List.ne_nil_of_mem hk))

end Keys

/-- A point with rational coordinates. -/
def Knot.IsRational (k : Knot Exact) : Prop := ∃ a b : Rat, k = ⟨.value a, .value b⟩

namespace Curve
variable {c : Curve Exact} {p q k : Knot Exact}

/-- The line through two rational points. -/
theorem line_value {a b a' b' : Rat} (h : a < a') (x : Rat) :
    line ⟨Exact.value a, Exact.value b⟩ ⟨Exact.value a', Exact.value b'⟩ (Exact.value x) =
      Exact.value ((b' - b) / (a' - a) * (x - a) + b) := by
  have hne : a' - a ≠ 0 := sub_ne_zero.mpr h.ne'
  simp [line, slope, Exact.value_div hne]

theorem line_left (hp : p.IsRational) (hq : q.IsRational) (h : p.x < q.x) :
    line p q p.x = p.y := by
  obtain ⟨a, b, rfl⟩ := hp
  obtain ⟨a', b', rfl⟩ := hq
  rw [line_value ((Exact.value_lt a a').mp h)]
  simp

theorem line_right (hp : p.IsRational) (hq : q.IsRational) (h : p.x < q.x) :
    line p q q.x = q.y := by
  obtain ⟨a, b, rfl⟩ := hp
  obtain ⟨a', b', rfl⟩ := hq
  have hlt := (Exact.value_lt a a').mp h
  have hne : a' - a ≠ 0 := sub_ne_zero.mpr hlt.ne'
  rw [line_value hlt]
  simp [div_mul_cancel₀ _ hne]

/-- A line on top of a rising line is a line. -/
theorem line_line {a b c a' b' c' : Rat} (ha : a < a') (hb : b < b') (x : Rat) :
    line ⟨Exact.value b, Exact.value c⟩ ⟨Exact.value b', Exact.value c'⟩
        (line ⟨Exact.value a, Exact.value b⟩ ⟨Exact.value a', Exact.value b'⟩ (.value x)) =
      line ⟨Exact.value a, Exact.value c⟩ ⟨Exact.value a', Exact.value c'⟩ (.value x) := by
  have hne : b' - b ≠ 0 := sub_ne_zero.mpr hb.ne'
  rw [line_value ha, line_value hb, line_value ha, Exact.value.injEq, add_sub_cancel_right,
    ← mul_assoc, div_mul_div_cancel₀ hne]

/-- A line that rises from one point to another rises everywhere. -/
theorem line_lt_line (hp : p.IsRational) (hq : q.IsRational) (h : p.x < q.x) (hy : p.y < q.y)
    {x x' : Exact} (hx : x < x') : line p q x < line p q x' := by
  obtain ⟨a, b, rfl⟩ := hp
  obtain ⟨a', b', rfl⟩ := hq
  obtain ⟨r, s, rfl, rfl, hrs⟩ := Exact.lt_iff.mp hx
  have hlt := (Exact.value_lt a a').mp h
  have hrise := (Exact.value_lt b b').mp hy
  have hslope : 0 < (b' - b) / (a' - a) := div_pos (sub_pos.mpr hrise) (sub_pos.mpr hlt)
  rw [line_value hlt, line_value hlt, Exact.value_lt]
  have := mul_lt_mul_of_pos_left (sub_lt_sub_right hrs a) hslope
  linarith

/-- The knots are rational points whose abscissae increase strictly. -/
structure Strict (c : Curve Exact) : Prop where
  rational : ∀ k ∈ c.knots, k.IsRational
  increasing : c.knots.Pairwise fun p q => p.x < q.x

/-- A curve of two knots or more follows at `x` the line through two neighbours. -/
theorem exists_extended_eq (h : c.rest ≠ []) (x : Exact) :
    ∃ before lower upper after, c.extended x = line lower upper x ∧
      c.knots = before ++ lower :: upper :: after ∧
      (before = [] ∨ precedes lower.x x) ∧ (after = [] ∨ ¬precedes upper.x x) := by
  obtain ⟨first, rest⟩ := c
  cases rest with
  | nil => exact absurd rfl h
  | cons second rest =>
    obtain ⟨before, lower, upper, after, hb, hsplit, hbefore, hafter⟩ :=
      exists_bracket_eq Knot.x x first second rest
    refine ⟨before, lower, upper, after, ?_, hsplit, hbefore, hafter⟩
    simp only [extended, hb]

namespace Strict

theorem lt_of_eq_append {before after : List (Knot Exact)} (h : c.Strict)
    (hsplit : c.knots = before ++ p :: q :: after) : p.x < q.x := by
  have hincreasing := h.increasing
  rw [hsplit, List.pairwise_append] at hincreasing
  exact List.rel_of_pairwise_cons hincreasing.2.1 List.mem_cons_self

/-- The curve has a rational value everywhere. -/
theorem exists_extended_value (h : c.Strict) (x : Rat) :
    ∃ y, c.extended (.value x) = .value y := by
  by_cases hrest : c.rest = []
  · obtain ⟨a, b, hk⟩ := h.rational c.first (by simp [knots])
    refine ⟨b, ?_⟩
    rw [extended, hrest, hk]
  · obtain ⟨before, lower, upper, after, hx, hsplit, -⟩ := exists_extended_eq hrest (.value x)
    have hlt := h.lt_of_eq_append hsplit
    obtain ⟨a, b, rfl⟩ := h.rational lower (by simp [hsplit])
    obtain ⟨a', b', rfl⟩ := h.rational upper (by simp [hsplit])
    rw [hx, line_value ((Exact.value_lt a a').mp hlt)]
    exact ⟨_, rfl⟩

/-- The curve passes through its knots. -/
theorem extended_of_mem (h : c.Strict) (hk : k ∈ c.knots) : c.extended k.x = k.y := by
  obtain ⟨first, rest⟩ := c
  cases rest with
  | nil =>
    obtain rfl : k = first := by simpa [knots] using hk
    rfl
  | cons second rest =>
    have hlt := bracket_lt h.increasing k.x
    have hp := h.rational _ (bracket_mem Knot.x k.x).1
    have hq := h.rational _ (bracket_mem Knot.x k.x).2
    have hend := eq_or_eq_of_bracket h.increasing hk
    simp only [extended]
    generalize bracket Knot.x k.x first second rest = ends at hlt hp hq hend ⊢
    obtain ⟨p, q⟩ := ends
    obtain hend | hend := hend
    · rw [hend]
      exact line_left hp hq hlt
    · rw [hend]
      exact line_right hp hq hlt

end Strict
end Curve
end BlackOil

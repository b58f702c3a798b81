import BlackOil.Proofs.Scalar.Difference

/-!
# Sought abscissae

Halving finds the place of a key in a column whose keys do not fall, undefined ones at the end.
It finds the same place from all bounds that this place is between, hence also from those that
the key before has left. Several abscissae are then each found as they are alone, and a curve
has its own value in each of them.
-/
namespace BlackOil
variable {α β : Type} [Scalar α]

/-- Scalars can be sorted, the undefined ones to the end. -/
class Scalar.Sortable (α : Type) [Scalar α] : Prop where
  asymm {x y : α} : precedes x y → ¬precedes y x
  /-- Where one scalar comes before another, any third comes after the one or before the other. -/
  cotrans {x y z : α} : precedes x z → precedes x y ∨ precedes y z

namespace Scalar.Sortable

/-- Scalars can be sorted if those that are defined compare as integers or rational numbers do. -/
theorem of_value {κ : Type} [LinearOrder κ] (value : α → κ)
    (h : ∀ {x y : α}, x < y ↔ isUndefined x = false ∧ isUndefined y = false ∧ value x < value y) :
    Sortable α := by
  have hprecedes : ∀ x y : α, precedes x y ↔
      isUndefined x = false ∧ (isUndefined y = false → value x < value y) := by
    intro x y
    simp only [precedes, Bool.or_eq_true, Bool.and_eq_true, decide_eq_true_eq, h,
      Bool.not_eq_true']
    cases isUndefined x <;> cases isUndefined y <;> simp
  constructor
  · intro x y
    rw [hprecedes, hprecedes]
    rintro ⟨hx, hxy⟩ ⟨hy, hyx⟩
    exact lt_asymm (hxy hy) (hyx hx)
  · intro x y z
    rw [hprecedes, hprecedes, hprecedes]
    rintro ⟨hx, hxz⟩
    cases hy : isUndefined y with
    | true => exact .inl ⟨hx, fun h => Bool.noConfusion h⟩
    | false =>
      rcases lt_or_ge (value x) (value y) with hlt | hge
      · exact .inl ⟨hx, fun _ => hlt⟩
      · exact .inr ⟨rfl, fun hz => hge.trans_lt (hxz hz)⟩

/-- The number that an exact scalar is, zero for the undefined one. -/
def number : Exact → Rat
  | .value q => q
  | .undefined => 0

instance : Sortable Exact :=
  of_value number fun {x y} => by
    cases x with
    | undefined => simp [Exact.not_undefined_lt]
    | value a =>
      cases y with
      | undefined => simp [Exact.not_lt_undefined]
      | value b => simp [number]

instance : Sortable Float :=
  of_value Binary64.value fun {x y} => by
    constructor
    · intro h
      obtain ⟨hx, hy⟩ := Binary64.defined_of_lt h
      exact ⟨hx, hy, (Binary64.lt_iff_value hx hy).mp h⟩
    · rintro ⟨hx, hy, h⟩
      exact (Binary64.lt_iff_value hx hy).mpr h

end Scalar.Sortable

theorem not_precedes_of_le [Scalar.FiniteArithmetic α] {x y : α} (h : x ≤ y) :
    ¬precedes y x := by
  rw [precedes, (Scalar.Lawful.defined_of_le h).1, Bool.false_and, Bool.or_false,
    decide_eq_true_eq, Scalar.FiniteArithmetic.lt_iff_le_not_le]
  exact fun hlt => hlt.2 h

/-- The keys of a column do not fall. -/
def Ascending (column : List α) : Prop := column.Pairwise fun a b => ¬precedes b a

instance (column : List α) : Decidable (Ascending column) :=
  inferInstanceAs (Decidable (List.Pairwise _ _))

/-- How many keys at the beginning of a column come before a key. -/
def rank (column : List α) (key : α) : Nat := (column.takeWhile (precedes · key)).length

theorem rank_le_length (column : List α) (key : α) : rank column key ≤ column.length :=
  (List.takeWhile_sublist _).length_le

theorem rank_cons (a : α) (column : List α) (key : α) :
    rank (a :: column) key = if precedes a key then rank column key + 1 else 0 := by
  rw [rank, List.takeWhile_cons]
  split <;> rfl

section Place
open Scalar (Sortable)
variable [Sortable α] {column : List α} {key last : α}

/-- In a column that does not fall, the keys at the beginning are all that come before a key. -/
theorem precedes_iff_lt_rank (h : Ascending column) {k : Nat} {a : α} (ha : column[k]? = some a) :
    precedes a key ↔ k < rank column key := by
  induction column generalizing k with
  | nil => cases ha
  | cons b column ih =>
    obtain ⟨hb, hcolumn⟩ := List.pairwise_cons.mp h
    rw [rank_cons]
    by_cases hfirst : precedes b key
    · rw [if_pos hfirst]
      cases k with
      | zero =>
        cases ha
        exact iff_of_true hfirst (Nat.zero_lt_succ _)
      | succ k => exact (ih hcolumn ha).trans Nat.succ_lt_succ_iff.symm
    · rw [if_neg hfirst]
      refine iff_of_false (fun hlater => ?_) (Nat.not_lt_zero k)
      cases k with
      | zero =>
        cases ha
        exact hfirst hlater
      | succ k =>
        -- what is not before `b` would lie between it and the key
        rcases Sortable.cotrans (y := b) hlater with hab | hbk
        · exact hb a (List.mem_of_getElem? ha) hab
        · exact hfirst hbk

/-- Halving finds the place of a key from all bounds around it. -/
theorem place_eq_rank (h : Ascending column) {low high : Nat} (hlow : low ≤ rank column key)
    (hhigh : rank column key ≤ high) (hsize : high ≤ column.length) :
    place column.toArray key low high = rank column key := by
  fun_induction place column.toArray key low high with
  | case1 low high hlt middle hbefore ih =>
    obtain ⟨a, ha, hprecedes⟩ := (Option.any_eq_true _ _).mp hbefore
    have hrank := (precedes_iff_lt_rank h (List.getElem?_toArray ▸ ha)).mp hprecedes
    exact ih hrank hhigh hsize
  | case2 low high hlt middle hbefore ih =>
    refine ih hlow ?_ (by omega)
    have hmiddle : middle < column.length := by omega
    by_contra hrank
    have hprecedes : precedes column[middle] key :=
      (precedes_iff_lt_rank h (List.getElem?_eq_getElem hmiddle)).mpr (Nat.not_le.mp hrank)
    exact hbefore (by simpa [List.getElem?_eq_getElem hmiddle] using hprecedes)
  | case3 low high hlt => omega

theorem rank_le_rank (h : Ascending column) (hkey : ¬precedes last key) :
    rank column key ≤ rank column last := by
  by_contra hlt
  have hlt := Nat.not_le.mp hlt
  have hsize := hlt.trans_le (rank_le_length column key)
  have ha := List.getElem?_eq_getElem hsize
  have hbefore := (precedes_iff_lt_rank h ha).mpr hlt
  -- the entry at the place of the last key comes before the key, but not before the last one
  rcases Sortable.cotrans (y := last) hbefore with hlast | hlast
  · exact Nat.lt_irrefl _ ((precedes_iff_lt_rank h ha).mp hlast)
  · exact hkey hlast

theorem rank_le_rank_of_precedes (h : Ascending column) (hkey : precedes last key) :
    rank column last ≤ rank column key :=
  rank_le_rank h (Sortable.asymm hkey)

/-- Behind a key that has been found all keys are found. -/
theorem placesAfter_eq_map (h : Ascending column) (last : α) (keys : List α) :
    placesAfter column.toArray last (rank column last) keys = keys.map (rank column) := by
  induction keys generalizing last with
  | nil => rfl
  | cons key keys ih =>
    have hfound : (if precedes last key then
        place column.toArray key (rank column last) column.toArray.size
        else place column.toArray key 0 (min (rank column last + 1) column.toArray.size)) =
          rank column key := by
      have hlength := rank_le_length column key
      split
      · rename_i hkey
        exact place_eq_rank h (rank_le_rank_of_precedes h hkey) hlength le_rfl
      · rename_i hkey
        have hle := rank_le_rank h hkey
        exact place_eq_rank h (Nat.zero_le _) (le_min (by omega) hlength) (Nat.min_le_right _ _)
    simp only [placesAfter, hfound, ih, List.map_cons]

/-- Each key is found as if it were sought alone. -/
theorem places_eq_map (h : Ascending column) (keys : List α) :
    places column.toArray keys = keys.map (rank column) := by
  cases keys with
  | nil => rfl
  | cons key keys =>
    have hfirst : place column.toArray key 0 column.toArray.size = rank column key :=
      place_eq_rank h (Nat.zero_le _) (rank_le_length column key) le_rfl
    simp only [places, hfirst, placesAfter_eq_map h, List.map_cons]

end Place

section Neighbours
open Scalar (Sortable)
variable [Sortable α]

omit [Sortable α] in
/-- The neighbours around a key are at its rank in the column without the first key. -/
theorem bracket_eq_neighboursAt (key : β → α) (x : α) (p q : β) (rest : List β) :
    bracket key x p q rest =
      neighboursAt (rank ((q :: rest).map key) x) p q rest := by
  induction rest generalizing p q with
  | nil =>
    rw [bracket]
    cases rank _ x <;> rfl
  | cons r rest ih =>
    rw [bracket, List.map_cons, rank_cons]
    by_cases hq : precedes (key q) x
    · rw [if_pos hq, if_pos hq, ih]
      rfl
    · rw [if_neg hq, if_neg hq]
      rfl

/-- A column whose first key does not come before another has no key that does. -/
theorem rank_cons_sub_one {a : α} {column : List α} (h : Ascending (a :: column)) (x : α) :
    rank (a :: column) x - 1 = rank column x := by
  obtain ⟨ha, -⟩ := List.pairwise_cons.mp h
  rw [rank_cons]
  by_cases hfirst : precedes a x
  · rw [if_pos hfirst, Nat.add_sub_cancel]
  · rw [if_neg hfirst]
    cases column with
    | nil => rfl
    | cons b column =>
      have hsecond : ¬precedes b x := fun hb =>
        (Sortable.cotrans (y := a) hb).elim (ha b List.mem_cons_self) hfirst
      rw [rank_cons, if_neg hsecond]

theorem neighboursAt_rank (key : β → α) (x : α) (p q : β) (rest : List β)
    (h : Ascending ((p :: q :: rest).map key)) :
    neighboursAt (rank ((p :: q :: rest).map key) x - 1) p q rest = bracket key x p q rest := by
  rw [bracket_eq_neighboursAt, List.map_cons, rank_cons_sub_one h]

/-- A curve with ascending knots has its own value at each of several abscissae. -/
theorem Curve.extendedAll_eq_map (c : Curve α) (h : Ascending (c.knots.map Knot.x)) (xs : List α) :
    c.extendedAll xs = xs.map c.extended := by
  obtain ⟨first, rest⟩ := c
  cases rest with
  | nil => rfl
  | cons second rest =>
    have hplaces : ∀ x, neighboursAt (rank (((⟨first, second :: rest⟩ : Curve α).knots).map Knot.x) x
        - 1) first second rest = bracket Knot.x x first second rest := fun x =>
      neighboursAt_rank Knot.x x first second rest h
    simp only [extendedAll, places_eq_map h, List.zipWith_map_right, List.zipWith_self, hplaces]
    rfl

end Neighbours
end BlackOil

import BlackOil.Proofs.Saturation.Tables

/-!
# Laws of given columns

Which columns make a two-phase law, and what the law stores of them. The saturations must be
numbers that never fall or never rise. Columns whose saturations fall are turned round all
together, so it does not matter from which end a law is sampled, unless its saturations are
all the same.
-/
namespace BlackOil

/-- The columns that a two-phase law is made of. -/
structure SampleColumns where
  saturation : List Exact
  krWetting : List Exact
  krNonWetting : List Exact
  capillary : List Exact

namespace SampleColumns
variable {c : SampleColumns} {wetting nonWetting : Phase} {law : TwoPhaseLaw Exact}
  {samples : List (Sample Exact)}

/-- All columns from the last sample to the first. -/
def reverse (c : SampleColumns) : SampleColumns :=
  ⟨c.saturation.reverse, c.krWetting.reverse, c.krNonWetting.reverse, c.capillary.reverse⟩

/-- The law of two phases that the columns make. -/
def toLaw (c : SampleColumns) (wetting nonWetting : Phase) : Except Fault (TwoPhaseLaw Exact) :=
  TwoPhaseLaw.ofColumns wetting nonWetting c.saturation c.krWetting c.krNonWetting c.capillary

/-- The columns of samples. -/
def ofSamples (samples : List (Sample Exact)) : SampleColumns where
  saturation := samples.map Sample.saturation
  krWetting := samples.map Sample.wetting
  krNonWetting := samples.map Sample.nonWetting
  capillary := samples.map Sample.capillary

/-- The columns have one length. -/
structure IsRectangular (c : SampleColumns) : Prop where
  krWetting : c.krWetting.length = c.saturation.length
  krNonWetting : c.krNonWetting.length = c.saturation.length
  capillary : c.capillary.length = c.saturation.length

/-- The saturations are numbers that never fall or never rise. -/
structure IsMonotone (c : SampleColumns) : Prop where
  defined : ∀ s ∈ c.saturation, s ≠ .undefined
  ordered : c.saturation.Pairwise (· ≤ ·) ∨ c.saturation.Pairwise fun a b => b ≤ a

theorem ofSamples_reverse (samples : List (Sample Exact)) :
    ofSamples samples.reverse = (ofSamples samples).reverse := by
  simp only [ofSamples, reverse, List.map_reverse]

/-- Columns of one length are those of their samples. -/
theorem IsRectangular.exists_ofSamples (h : c.IsRectangular) : ∃ samples, c = ofSamples samples := by
  obtain ⟨s, kw, kn, pc⟩ := c
  obtain ⟨hkw, hkn, hpc⟩ := h
  dsimp only at hkw hkn hpc
  induction s generalizing kw kn pc with
  | nil =>
    rw [List.length_nil, List.length_eq_zero_iff] at hkw hkn hpc
    exact ⟨[], by rw [hkw, hkn, hpc]; rfl⟩
  | cons a s ih =>
    obtain ⟨b, kw, rfl⟩ := List.exists_cons_of_length_eq_add_one hkw
    obtain ⟨d, kn, rfl⟩ := List.exists_cons_of_length_eq_add_one hkn
    obtain ⟨e, pc, rfl⟩ := List.exists_cons_of_length_eq_add_one hpc
    obtain ⟨samples, h⟩ := ih kw kn pc (Nat.succ.inj hkw) (Nat.succ.inj hkn) (Nat.succ.inj hpc)
    obtain ⟨rfl, rfl, rfl, rfl⟩ := SampleColumns.mk.inj h
    exact ⟨⟨a, b, d, e⟩ :: samples, rfl⟩

/-- Samples make the same law as their columns. -/
theorem toLaw_ofSamples (samples : List (Sample Exact)) (wetting nonWetting : Phase) :
    (ofSamples samples).toLaw wetting nonWetting =
      TwoPhaseLaw.ofSamples wetting nonWetting samples := by
  have hzip : (((samples.map Sample.saturation).zip (samples.map Sample.wetting)).zip
      ((samples.map Sample.nonWetting).zip (samples.map Sample.capillary))).map
        (fun ((s, kw), (kn, pc)) => Sample.mk s kw kn pc) = samples := by
    simp only [List.zip_map', List.map_map, Function.comp_def, List.map_id']
  unfold toLaw TwoPhaseLaw.ofColumns
  simp only [ofSamples, List.length_map, ne_eq, not_true_eq_false, decide_false,
    List.find?_cons_of_neg, Bool.false_eq_true, not_false_eq_true, List.find?_nil, hzip]
  split
  · rename_i heq
    rw [TwoPhaseLaw.ofSamples, if_pos heq]
  · rfl

theorem isRectangular_of_toLaw (h : c.toLaw wetting nonWetting = .ok law) : c.IsRectangular := by
  unfold toLaw TwoPhaseLaw.ofColumns at h
  split at h
  · cases h
  · dsimp only at h
    split at h
    · cases h
    · rename_i hfind
      simp only [List.find?_eq_none, List.forall_mem_cons, List.not_mem_nil, false_imp_iff,
        implies_true, and_true, ne_eq, decide_eq_true_iff, not_not] at hfind
      exact ⟨hfind.1, hfind.2.1, hfind.2.2⟩

theorem toLaw_eq_ok_iff : (ofSamples samples).toLaw wetting nonWetting = .ok law ↔
    wetting ≠ nonWetting ∧ 2 ≤ samples.length ∧ law.wetting = wetting ∧
      law.nonWetting = nonWetting ∧ TwoPhaseLaw.ordered? samples = some law.samples := by
  rw [toLaw_ofSamples, TwoPhaseLaw.ofSamples_eq_ok_iff]

theorem saturation_ofSamples_pairwise {R : Exact → Exact → Prop} :
    (ofSamples samples).saturation.Pairwise R ↔
      samples.Pairwise fun s t => R s.saturation t.saturation :=
  List.pairwise_map

/-- Of two numbers or more that never fall or never rise none is undefined. -/
theorem ne_undefined_of_ordered {l : List Exact} (hcount : 2 ≤ l.length)
    (h : l.Pairwise (· ≤ ·) ∨ l.Pairwise fun a b => b ≤ a) : ∀ s ∈ l, s ≠ .undefined := by
  have hcompare : l.Pairwise fun a b => a ≠ .undefined ∧ b ≠ .undefined := by
    have hle : ∀ {a b : Exact}, a ≤ b → a ≠ .undefined ∧ b ≠ .undefined := by
      intro a b hab
      obtain ⟨p, q, rfl, rfl, -⟩ := Exact.le_iff.mp hab
      exact ⟨nofun, nofun⟩
    obtain h | h := h
    · exact h.imp hle
    · exact h.imp fun hab => (hle hab).symm
  obtain _ | ⟨a, _ | ⟨b, l⟩⟩ := l
  · nofun
  · exact absurd hcount (by simp)
  · have hfirst := (List.pairwise_cons.mp hcompare).1
    intro s hs
    obtain rfl | hs := List.mem_cons.mp hs
    · exact (hfirst b List.mem_cons_self).1
    · exact (hfirst s hs).2

/-- Numbers that neither rise nor fall are all the same. -/
theorem eq_of_level {l : List Exact} (hrise : l.Pairwise (· ≤ ·))
    (hfall : l.Pairwise fun a b => b ≤ a) : ∀ a ∈ l, ∀ b ∈ l, a = b := by
  have hlevel : l.Pairwise (· = ·) := by
    refine hrise.imp₂ (fun a b hab hba => ?_) hfall
    obtain ⟨p, q, rfl, rfl, hpq⟩ := Exact.le_iff.mp hab
    rw [le_antisymm hpq ((Exact.value_le q p).mp hba)]
  exact fun a ha b hb => hlevel.forall_of_forall (fun _ _ => rfl) ha hb

theorem ordered?_reverse
    (h : ¬((ofSamples samples).saturation.Pairwise (· ≤ ·) ∧
      (ofSamples samples).saturation.Pairwise fun a b => b ≤ a)) :
    TwoPhaseLaw.ordered? samples.reverse = TwoPhaseLaw.ordered? samples := by
  simp only [saturation_ofSamples_pairwise] at h
  rw [TwoPhaseLaw.ordered?_eq, TwoPhaseLaw.ordered?_eq]
  simp only [List.pairwise_reverse, List.reverse_reverse]
  by_cases hrise : samples.Pairwise fun s t => s.saturation ≤ t.saturation
  · rw [if_neg fun hfall => h ⟨hrise, hfall⟩, if_pos hrise, if_pos hrise]
  · rw [if_neg hrise, if_neg hrise]

/-- The law stores the columns, from one end or from the other, so that the saturations do not
fall. The columns from the other end make the same law unless their saturations are the same. -/
structure Normalised (c : SampleColumns) (wetting nonWetting : Phase)
    (law : TwoPhaseLaw Exact) : Prop where
  phases : law.wetting = wetting ∧ law.nonWetting = nonWetting
  ordered : (ofSamples law.samples).saturation.Pairwise (· ≤ ·)
  rows : ofSamples law.samples = c ∨ ofSamples law.samples = c.reverse
  reversible : (∃ a ∈ c.saturation, ∃ b ∈ c.saturation, a ≠ b) →
    c.reverse.toLaw wetting nonWetting = .ok law

theorem exists_toLaw_ofSamples_iff :
    (∃ law, (ofSamples samples).toLaw wetting nonWetting = .ok law) ↔
      wetting ≠ nonWetting ∧ 2 ≤ samples.length ∧
        ((ofSamples samples).saturation.Pairwise (· ≤ ·) ∨
          (ofSamples samples).saturation.Pairwise fun a b => b ≤ a) := by
  simp only [toLaw_eq_ok_iff, saturation_ofSamples_pairwise, TwoPhaseLaw.ordered?_eq]
  constructor
  · rintro ⟨law, hne, hcount, -, -, h⟩
    refine ⟨hne, hcount, ?_⟩
    split at h
    · rename_i hrise
      exact .inl hrise
    · split at h
      · rename_i hfall
        exact .inr hfall
      · cases h
  · rintro ⟨hne, hcount, h⟩
    have hlaw : ∀ stored : List (Sample Exact), stored.length = samples.length →
        ∃ law : TwoPhaseLaw Exact, law.wetting = wetting ∧ law.nonWetting = nonWetting ∧
          law.samples = stored := by
      intro stored hlength
      obtain ⟨first, rest, rfl⟩ := List.exists_cons_of_length_pos (show 0 < stored.length by omega)
      exact ⟨⟨wetting, nonWetting, first, rest⟩, rfl, rfl, rfl⟩
    split
    · obtain ⟨law, hwetting, hnonWetting, hstored⟩ := hlaw samples rfl
      exact ⟨law, hne, hcount, hwetting, hnonWetting, congrArg some hstored.symm⟩
    · rename_i hrise
      obtain ⟨law, hwetting, hnonWetting, hstored⟩ := hlaw samples.reverse List.length_reverse
      rw [if_pos (h.resolve_left hrise)]
      exact ⟨law, hne, hcount, hwetting, hnonWetting, congrArg some hstored.symm⟩

theorem exists_toLaw_iff : (∃ law, c.toLaw wetting nonWetting = .ok law) ↔
    wetting ≠ nonWetting ∧ c.IsRectangular ∧ 2 ≤ c.saturation.length ∧ c.IsMonotone := by
  have hrows : ∀ samples, 2 ≤ (ofSamples samples).saturation.length ↔ 2 ≤ samples.length :=
    fun samples => by rw [ofSamples, List.length_map]
  constructor
  · rintro ⟨law, h⟩
    have hrectangular := isRectangular_of_toLaw h
    obtain ⟨samples, rfl⟩ := hrectangular.exists_ofSamples
    obtain ⟨hne, hcount, hordered⟩ := exists_toLaw_ofSamples_iff.mp ⟨law, h⟩
    rw [← hrows] at hcount
    exact ⟨hne, hrectangular, hcount, ne_undefined_of_ordered hcount hordered, hordered⟩
  · rintro ⟨hne, hrectangular, hcount, hmonotone⟩
    obtain ⟨samples, rfl⟩ := hrectangular.exists_ofSamples
    exact exists_toLaw_ofSamples_iff.mpr ⟨hne, (hrows samples).mp hcount, hmonotone.ordered⟩

theorem normalised_of_toLaw (h : c.toLaw wetting nonWetting = .ok law) :
    c.Normalised wetting nonWetting law := by
  obtain ⟨samples, rfl⟩ := (isRectangular_of_toLaw h).exists_ofSamples
  obtain ⟨hne, hcount, hwetting, hnonWetting, hordered⟩ := toLaw_eq_ok_iff.mp h
  constructor
  case phases => exact ⟨hwetting, hnonWetting⟩
  case ordered =>
    exact saturation_ofSamples_pairwise.mpr (TwoPhaseLaw.ordered?_eq_some hordered).2
  case rows =>
    rw [TwoPhaseLaw.ordered?_eq] at hordered
    split at hordered
    · exact .inl (congrArg ofSamples (Option.some.inj hordered).symm)
    · split at hordered
      · rw [← ofSamples_reverse]
        exact .inr (congrArg ofSamples (Option.some.inj hordered).symm)
      · cases hordered
  case reversible =>
    rintro ⟨a, ha, b, hb, hab⟩
    rw [← ofSamples_reverse, toLaw_eq_ok_iff, List.length_reverse,
      ordered?_reverse fun hlevel => hab (eq_of_level hlevel.1 hlevel.2 a ha b hb)]
    exact ⟨hne, hcount, hwetting, hnonWetting, hordered⟩

/-- Columns make a law exactly if they are as long as each other, at least two samples, with
monotone saturations, and the phases differ. The law stores them in one of the two orders. -/
theorem toLaw_accepts_normalised (c : SampleColumns) (wetting nonWetting : Phase) :
    ((∃ law, c.toLaw wetting nonWetting = .ok law) ↔
      wetting ≠ nonWetting ∧ c.IsRectangular ∧ 2 ≤ c.saturation.length ∧ c.IsMonotone) ∧
    ∀ law, c.toLaw wetting nonWetting = .ok law → c.Normalised wetting nonWetting law :=
  ⟨exists_toLaw_iff, fun _ => normalised_of_toLaw⟩

/-- Saturations that fall but for one that is repeated. -/
theorem toLaw_accepts_normalised_repeated : ∃ (c : SampleColumns) (law : TwoPhaseLaw Exact),
    c.saturation = [1.0, 0.5, 0.5, 0.2] ∧ c.krWetting = [1.0, 0.4, 0.3, 0.0] ∧
      c.krNonWetting = [0.0, 0.1, 0.6, 1.0] ∧ c.capillary = [0.0, 1e4, 2e4, .undefined] ∧
      c.toLaw .water .oil = .ok law ∧ c.Normalised .water .oil law ∧
      c.reverse.toLaw .water .oil = .ok law := by
  let c : SampleColumns := ⟨[1.0, 0.5, 0.5, 0.2], [1.0, 0.4, 0.3, 0.0], [0.0, 0.1, 0.6, 1.0],
    [0.0, 1e4, 2e4, .undefined]⟩
  have hspec := toLaw_accepts_normalised c .water .oil
  obtain ⟨law, hlaw⟩ := hspec.1.mpr ⟨by decide, ⟨rfl, rfl, rfl⟩, by decide, by decide +kernel,
    .inr (by decide +kernel)⟩
  have hnormalised := hspec.2 law hlaw
  exact ⟨c, law, rfl, rfl, rfl, rfl, hlaw, hnormalised,
    hnormalised.reversible ⟨1.0, by simp [c], 0.2, by simp [c], by decide +kernel⟩⟩

end SampleColumns
end BlackOil

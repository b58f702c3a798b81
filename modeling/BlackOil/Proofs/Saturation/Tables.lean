import BlackOil.Proofs.Curve.Monotone
import BlackOil.Proofs.Outcome
import BlackOil.Saturation.Region

/-!
# Tabulated laws

What the law of a region holds of the two tables that it was built from. All items of the
tables are rational numbers. Each two-phase law stores one sample for every row of its
table, in the order of saturations that do not fall. The curves of a law are therefore
curves through rational knots, and their abscissae increase strictly if the first column of
the table is strictly monotone.
-/
namespace BlackOil

section Rows
variable {α : Type} [Scalar α]

/-- A row of a saturation table: a saturation, the relative permeability of the phase whose
saturation it is, that of oil, and the capillary pressure. -/
abbrev SaturationRow (α : Type) := α × α × α × α

/-- The items of a row. -/
def SaturationRow.values (row : SaturationRow α) : List α :=
  [row.1, row.2.1, row.2.2.1, row.2.2.2]

/-- The rows are those of the table of a region, which counts from zero: the items of its records
are the items of the rows. -/
def Deck.HoldsRows (deck : Deck α) (keyword : String) (region : Nat)
    (rows : List (SaturationRow α)) : Prop :=
  ∃ tables table, deck.tables.find? (Text.upper keyword) = some tables ∧
    tables[region]? = some table ∧ table.flatten = rows.flatMap SaturationRow.values

/-- The sample of a row of an oil-water table. -/
def waterSample (row : SaturationRow α) : Sample α := ⟨row.1, row.2.1, row.2.2.1, row.2.2.2⟩

/-- The sample of a row of a gas-oil table, at the oil saturation. -/
def gasSample (row : SaturationRow α) : Sample α :=
  ⟨1.0 - row.1, row.2.2.1, row.2.1, row.2.2.2⟩

omit [Scalar α] in
theorem flatMap_rowsOfFour {l : List α} (h : l.length % 4 = 0) :
    (rowsOfFour l).flatMap SaturationRow.values = l := by
  fun_induction rowsOfFour l with
  | case1 a b c d rest ih =>
    have hrest : rest.length % 4 = 0 := by
      simp only [List.length_cons] at h
      omega
    rw [List.flatMap_cons, ih hrest]
    rfl
  | case2 l hshort =>
    match l, hshort with
    | [], _ => rfl
    | [_], _ | [_, _], _ | [_, _, _], _ => cases h
    | a :: b :: c :: d :: rest, hshort => exact absurd rfl (hshort a b c d rest)

omit [Scalar α] in
theorem rowsOfFour_flatMap (rows : List (SaturationRow α)) :
    rowsOfFour (rows.flatMap SaturationRow.values) = rows := by
  induction rows with
  | nil => rfl
  | cons row rows ih => exact congrArg (row :: ·) ih

omit [Scalar α] in
/-- A table has no other rows. -/
theorem Deck.HoldsRows.rows_eq {deck : Deck α} {keyword : String} {region : Nat}
    {rows : List (SaturationRow α)} {tables : List (Table α)} {table : Table α}
    (h : deck.HoldsRows keyword region rows)
    (htables : deck.tables.find? (Text.upper keyword) = some tables)
    (htable : tables[region]? = some table) : rows = rowsOfFour table.flatten := by
  obtain ⟨tables', table', htables', htable', hrows⟩ := h
  rw [htables, Option.some.injEq] at htables'
  subst htables'
  rw [htable, Option.some.injEq] at htable'
  rw [htable', hrows, rowsOfFour_flatMap]

omit [Scalar α] in
theorem Deck.find?_of_tablesOf_eq_ok {deck : Deck α} {keyword reason : String}
    {tables : List (Table α)} (h : deck.tablesOf keyword reason = .ok tables) :
    deck.tables.find? (Text.upper keyword) = some tables ∧ tables ≠ [] := by
  unfold tablesOf at h
  split at h
  · rename_i table rest hfind
    cases h
    exact ⟨hfind, List.cons_ne_nil table rest⟩
  · cases h

/-- There is a law for each pair of tables, and at least one. -/
theorem exists_tables_of_saturationLaws {deck : Deck α} {laws : List (ThreePhaseLaw α)}
    (h : saturationLaws deck = .ok laws) : ∃ swofs sgofs,
      deck.tables.find? (Text.upper "SWOF") = some swofs ∧
      deck.tables.find? (Text.upper "SGOF") = some sgofs ∧
      laws ≠ [] ∧ laws.length = swofs.length ∧
      ∀ (region : Nat) law, laws[region]? = some law → ∃ swof sgof,
        swofs[region]? = some swof ∧ sgofs[region]? = some sgof ∧
        ThreePhaseLaw.ofTables (region + 1) swof sgof = .ok law := by
  simp only [saturationLaws, Outcome.bind_eq_ok_iff, Outcome.check_eq_ok_iff,
    Outcome.mapM_eq_ok_iff] at h
  obtain ⟨swofs, hswofs, sgofs, hsgofs, hcount, hlaws⟩ := h
  have hlength : laws.length = swofs.length := by
    have hlength := congrArg List.length hlaws
    rw [List.length_map, List.length_map, List.length_zipIdx, List.length_zip] at hlength
    omega
  have hswofs := Deck.find?_of_tablesOf_eq_ok hswofs
  have hsgofs := Deck.find?_of_tablesOf_eq_ok hsgofs
  refine ⟨swofs, sgofs, hswofs.1, hsgofs.1, ?_, hlength, ?_⟩
  · rw [← List.length_pos_iff, hlength]
    exact List.length_pos_iff.mpr hswofs.2
  · intro region law hlaw
    have hregion := congrArg (·[region]?) hlaws
    simp only [List.getElem?_map, hlaw, Option.map_some, List.getElem?_zipIdx,
      Option.map_eq_some_iff, Nat.zero_add] at hregion
    obtain ⟨_, ⟨⟨swof, sgof⟩, hpair, rfl⟩, hlaw⟩ := hregion
    obtain ⟨hswof, hsgof⟩ := List.getElem?_zip_eq_some.mp hpair
    exact ⟨swof, sgof, hswof, hsgof, hlaw⟩

/-- The laws of a deck are those of its tables, region by region. -/
theorem ofTables_of_saturationLaws {deck : Deck α} {laws : List (ThreePhaseLaw α)}
    (h : saturationLaws deck = .ok laws) {region : Nat} {law : ThreePhaseLaw α}
    (hlaw : laws[region]? = some law) :
    ∃ swofs sgofs swof sgof, deck.tables.find? (Text.upper "SWOF") = some swofs ∧
      deck.tables.find? (Text.upper "SGOF") = some sgofs ∧ swofs[region]? = some swof ∧
      sgofs[region]? = some sgof ∧ ThreePhaseLaw.ofTables (region + 1) swof sgof = .ok law := by
  obtain ⟨swofs, sgofs, hswofs, hsgofs, -, -, htables⟩ := exists_tables_of_saturationLaws h
  obtain ⟨swof, sgof, hswof, hsgof, hbuilt⟩ := htables region law hlaw
  exact ⟨swofs, sgofs, swof, sgof, hswofs, hsgofs, hswof, hsgof, hbuilt⟩

end Rows

/-- A row of rational numbers. -/
def IsRationalRow (row : SaturationRow Exact) : Prop :=
  ∃ a b c d : Rat, row = (.value a, .value b, .value c, .value d)

/-- The rows that are cut from a table have its items, all of which are rational numbers. -/
theorem saturationRows_eq_ok {keyword : String} {number : Nat} {table : Table Exact}
    {rows : List (SaturationRow Exact)} (h : saturationRows keyword number table = .ok rows) :
    table.flatten = rows.flatMap SaturationRow.values ∧ ∀ row ∈ rows, IsRationalRow row := by
  simp only [saturationRows] at h
  split at h
  · cases h
  · rename_i hsize
    split at h
    · cases h
    · rename_i hdefined
      cases h
      have hvalues := flatMap_rowsOfFour (not_ne_iff.mp (not_or.mp hsize).2)
      refine ⟨hvalues.symm, fun row hrow => ?_⟩
      have hvalue : ∀ x ∈ row.values, ∃ q, x = Exact.value q := fun x hx =>
        Exact.exists_value_of_any hdefined (hvalues ▸ List.mem_flatMap.mpr ⟨row, hrow, hx⟩)
      obtain ⟨x, y, z, w⟩ := row
      obtain ⟨a, rfl⟩ := hvalue x (by simp [SaturationRow.values])
      obtain ⟨b, rfl⟩ := hvalue y (by simp [SaturationRow.values])
      obtain ⟨c, rfl⟩ := hvalue z (by simp [SaturationRow.values])
      obtain ⟨d, rfl⟩ := hvalue w (by simp [SaturationRow.values])
      exact ⟨a, b, c, d, rfl⟩

/-- A sample of rational numbers. -/
def Sample.IsRational (s : Sample Exact) : Prop :=
  ∃ a b c d : Rat, s = ⟨.value a, .value b, .value c, .value d⟩

theorem IsRationalRow.waterSample {row : SaturationRow Exact} (h : IsRationalRow row) :
    (waterSample row).IsRational := by
  obtain ⟨a, b, c, d, rfl⟩ := h
  exact ⟨a, b, c, d, rfl⟩

theorem IsRationalRow.gasSample {row : SaturationRow Exact} (h : IsRationalRow row) :
    (gasSample row).IsRational := by
  obtain ⟨a, b, c, d, rfl⟩ := h
  exact ⟨1.0 - a, c, b, d, rfl⟩

/-- A quantity that is a rational number in every sample of such numbers. -/
def IsQuantity (quantity : Sample Exact → Exact) : Prop :=
  ∀ s : Sample Exact, s.IsRational → ∃ q, quantity s = .value q

theorem isQuantity_wetting : IsQuantity Sample.wetting := by
  rintro _ ⟨a, b, c, d, rfl⟩
  exact ⟨b, rfl⟩

theorem isQuantity_nonWetting : IsQuantity Sample.nonWetting := by
  rintro _ ⟨a, b, c, d, rfl⟩
  exact ⟨c, rfl⟩

theorem isQuantity_capillary : IsQuantity Sample.capillary := by
  rintro _ ⟨a, b, c, d, rfl⟩
  exact ⟨d, rfl⟩

namespace TwoPhaseLaw
variable {samples stored : List (Sample Exact)} {law : TwoPhaseLaw Exact}

/-- Samples are kept if their saturations do not fall, and otherwise turned round if they do
not rise. -/
theorem ordered?_eq (samples : List (Sample Exact)) : ordered? samples =
    if samples.Pairwise fun s t => s.saturation ≤ t.saturation then some samples
    else if samples.Pairwise fun s t => t.saturation ≤ s.saturation then some samples.reverse
    else none := by
  have hrise := Scalar.all_steps_nonneg_iff (l := samples.map Sample.saturation)
  have hfall := Scalar.all_steps_nonpos_iff (l := samples.map Sample.saturation)
  have hdown := Scalar.any_steps_neg_iff (l := samples.map Sample.saturation)
  simp only [List.pairwise_map] at hrise hfall hdown
  simp only [ordered?, Bool.and_eq_true, hrise, hfall]
  by_cases hr : samples.Pairwise fun s t => s.saturation ≤ t.saturation
  · rw [if_neg fun h => (hdown h.1).mp h.2 hr, if_pos hr, if_pos hr]
  · by_cases hf : samples.Pairwise fun s t => t.saturation ≤ s.saturation
    · rw [if_pos ⟨hf, (hdown hf).mpr hr⟩, if_neg hr, if_pos hf]
    · rw [if_neg fun h => hf h.1, if_neg hr, if_neg hr, if_neg hf]

/-- The samples are stored as given or turned round, so that saturations do not fall. -/
theorem ordered?_eq_some (h : ordered? samples = some stored) :
    stored.Perm samples ∧ stored.Pairwise fun s t => s.saturation ≤ t.saturation := by
  rw [ordered?_eq] at h
  split at h
  · rename_i hrise
    cases h
    exact ⟨.refl _, hrise⟩
  · split at h
    · rename_i hfall
      cases h
      exact ⟨List.reverse_perm samples, List.pairwise_reverse.mpr hfall⟩
    · cases h

theorem ofSamples_eq_ok_iff {wetting nonWetting : Phase} :
    ofSamples wetting nonWetting samples = .ok law ↔
      wetting ≠ nonWetting ∧ 2 ≤ samples.length ∧ law.wetting = wetting ∧
        law.nonWetting = nonWetting ∧ ordered? samples = some law.samples := by
  obtain ⟨w, n, first, rest⟩ := law
  unfold ofSamples
  split
  · rename_i heq
    exact ⟨nofun, fun h => absurd heq h.1⟩
  · rename_i hne
    split
    · rename_i hfew
      exact ⟨nofun, fun h => absurd h.2.1 (Nat.not_le.mpr hfew)⟩
    · rename_i hcount
      split
      · rename_i first' rest' hordered
        simp only [hordered, Except.ok.injEq, mk.injEq, Option.some.injEq, TwoPhaseLaw.samples,
          List.cons.injEq]
        constructor
        · rintro ⟨rfl, rfl, rfl, rfl⟩
          exact ⟨hne, Nat.not_lt.mp hcount, rfl, rfl, rfl, rfl⟩
        · rintro ⟨-, -, rfl, rfl, rfl, rfl⟩
          exact ⟨rfl, rfl, rfl, rfl⟩
      · rename_i hnone
        exact ⟨nofun, fun h => absurd h.2.2.2.2 (hnone first rest)⟩

/-- The law stores samples of rational numbers in the order of saturations that do not fall. -/
structure Holds (law : TwoPhaseLaw Exact) (samples : List (Sample Exact)) : Prop where
  perm : law.samples.Perm samples
  ordered : law.samples.Pairwise fun s t => s.saturation ≤ t.saturation
  rational : ∀ s ∈ law.samples, s.IsRational

theorem holds_of_ofSamples {wetting nonWetting : Phase} (hs : ∀ s ∈ samples, s.IsRational)
    (h : ofSamples wetting nonWetting samples = .ok law) : law.Holds samples := by
  obtain ⟨-, -, -, -, hordered⟩ := ofSamples_eq_ok_iff.mp h
  obtain ⟨hperm, hle⟩ := ordered?_eq_some hordered
  exact ⟨hperm, hle, fun s hmem => hs s (hperm.mem_iff.mp hmem)⟩

theorem knots_curve (law : TwoPhaseLaw Exact) (quantity : Sample Exact → Exact) :
    (law.curve quantity).knots = law.samples.map fun s => ⟨s.saturation, quantity s⟩ := rfl

namespace Holds
variable {quantity : Sample Exact → Exact}

theorem rational_knots (h : law.Holds samples) (hq : IsQuantity quantity) :
    ∀ k ∈ (law.curve quantity).knots, k.IsRational := by
  intro k hk
  rw [knots_curve] at hk
  obtain ⟨s, hs, rfl⟩ := List.mem_map.mp hk
  obtain ⟨y, hy⟩ := hq s (h.rational s hs)
  obtain ⟨a, b, c, d, rfl⟩ := h.rational s hs
  exact ⟨a, y, by rw [hy]⟩

/-- A curve of the law stays in the range of its column. -/
theorem held_within (h : law.Holds samples) (hq : IsQuantity quantity) (x : Rat) :
    Exact.Within (samples.map quantity) ((law.curve quantity).held (.value x)) := by
  have hcolumn : (law.curve quantity).knots.map Knot.y = law.samples.map quantity := by
    rw [knots_curve, List.map_map]
    rfl
  have hwithin := Curve.held_within (h.rational_knots hq) x
  rw [hcolumn] at hwithin
  exact hwithin.mono (h.perm.map quantity).subset

theorem divisor_pos (h : law.Holds samples) (hq : IsQuantity quantity) {x : Rat} {d : Exact}
    (hd : (law.curve quantity).divisor (.value x) = some d) : .value 0 < d :=
  Curve.divisor_pos (h.rational_knots hq) hd

theorem ordered_curve (h : law.Holds samples) (hq : IsQuantity quantity) :
    (law.curve quantity).Ordered := by
  refine ⟨h.rational_knots hq, ?_⟩
  rw [knots_curve, List.pairwise_map]
  exact h.ordered

/-- Of the samples at one saturation the last one counts. -/
theorem held_of_split (h : law.Holds samples) (hq : IsQuantity quantity)
    {before after : List (Sample Exact)} {s : Sample Exact}
    (hsplit : law.samples = before ++ s :: after)
    (hlast : ∀ t ∈ after, t.saturation ≠ s.saturation) :
    (law.curve quantity).held s.saturation = quantity s := by
  let knot (s : Sample Exact) : Knot Exact := ⟨s.saturation, quantity s⟩
  have hknots : (law.curve quantity).knots = before.map knot ++ knot s :: after.map knot := by
    rw [knots_curve, hsplit, List.map_append, List.map_cons]
  exact (h.ordered_curve hq).held_of_split hknots (List.forall_mem_map.mpr hlast)

/-- A curve of the law passes through its samples if their saturations are distinct. -/
theorem held_of_mem (h : law.Holds samples) (hq : IsQuantity quantity)
    (hdistinct : samples.Pairwise fun s t => s.saturation ≠ t.saturation) {s : Sample Exact}
    (hs : s ∈ samples) : (law.curve quantity).held s.saturation = quantity s := by
  have hstored : law.samples.Pairwise fun s t => s.saturation ≠ t.saturation :=
    (h.perm.pairwise_iff Ne.symm).mpr hdistinct
  obtain ⟨before, after, hsplit⟩ := List.append_of_mem (h.perm.mem_iff.mpr hs)
  rw [hsplit] at hstored
  have hafter : ∀ t ∈ after, s.saturation ≠ t.saturation :=
    (List.pairwise_cons.mp (List.pairwise_append.mp hstored).2.1).1
  exact h.held_of_split hq hsplit fun t ht => (hafter t ht).symm

end Holds
end TwoPhaseLaw

namespace ThreePhaseLaw

/-- The law holds the rows of an oil-water and of a gas-oil table. -/
structure Tabulates (law : ThreePhaseLaw Exact) (waterRows gasRows : List (SaturationRow Exact)) :
    Prop where
  water_rational : ∀ row ∈ waterRows, IsRationalRow row
  gas_rational : ∀ row ∈ gasRows, IsRationalRow row
  oilWater : law.oilWater.Holds (waterRows.map waterSample)
  gasOil : law.gasOil.Holds (gasRows.map gasSample)

theorem tabulates_of_ofTables {number : Nat} {swof sgof : Table Exact}
    {law : ThreePhaseLaw Exact} (h : ofTables number swof sgof = .ok law) :
    ∃ waterRows gasRows, swof.flatten = waterRows.flatMap SaturationRow.values ∧
      sgof.flatten = gasRows.flatMap SaturationRow.values ∧ law.Tabulates waterRows gasRows := by
  simp only [ofTables, Outcome.bind_eq_ok_iff] at h
  obtain ⟨waterRows, hwaterRows, gasRows, hgasRows, oilWater, hoilWater, gasOil, hgasOil, h⟩ := h
  obtain ⟨hswof, hwater⟩ := saturationRows_eq_ok hwaterRows
  obtain ⟨hsgof, hgas⟩ := saturationRows_eq_ok hgasRows
  refine ⟨waterRows, gasRows, hswof, hsgof, ?_⟩
  unfold ofLaws at h
  split at h
  · cases h
  · split at h
    · cases h
    · cases h
      exact {
        water_rational := hwater
        gas_rational := hgas
        oilWater := TwoPhaseLaw.holds_of_ofSamples
          (List.forall_mem_map.mpr fun row hrow => (hwater row hrow).waterSample) hoilWater
        gasOil := TwoPhaseLaw.holds_of_ofSamples
          (List.forall_mem_map.mpr fun row hrow => (hgas row hrow).gasSample) hgasOil }

/-- The law of a region tabulates the two tables of the region. -/
theorem exists_tabulates {deck : Deck Exact} {laws : List (ThreePhaseLaw Exact)}
    (h : saturationLaws deck = .ok laws) {region : Nat} {law : ThreePhaseLaw Exact}
    (hlaw : laws[region]? = some law) :
    ∃ waterRows gasRows, deck.HoldsRows "SWOF" region waterRows ∧
      deck.HoldsRows "SGOF" region gasRows ∧ law.Tabulates waterRows gasRows := by
  obtain ⟨swofs, sgofs, swof, sgof, hswofs, hsgofs, hswof, hsgof, hlaw⟩ :=
    ofTables_of_saturationLaws h hlaw
  obtain ⟨waterRows, gasRows, hwater, hgas, htabulates⟩ := tabulates_of_ofTables hlaw
  exact ⟨waterRows, gasRows, ⟨swofs, swof, hswofs, hswof, hwater⟩,
    ⟨sgofs, sgof, hsgofs, hsgof, hgas⟩, htabulates⟩

end ThreePhaseLaw

/-- Tables for two regions. The first repeats a saturation; in the second the water
saturation falls over two records. -/
def twoRegions : Deck Exact where
  tables := ⟨[
    ("SWOF", [[[0.2, 0.0, 1.0, 3e4, 0.5, 0.1, 0.6, 2e4, 0.5, 0.3, 0.4, 1e4, 1.0, 1.0, 0.0, 0.0]],
      [[1.0, 0.9, 0.0, 0.0, 0.6, 0.2, 0.3, 1e4], [0.1, 0.0, 0.8, 2e4]]]),
    ("SGOF", [[[0.0, 0.0, 1.0, 0.0, 0.8, 1.0, 0.0, 1e4]],
      [[0.0, 0.0, 0.8, 0.0, 0.3, 0.2, 0.4, 5e3, 0.9, 0.7, 0.0, 1e4]]])], by decide⟩

end BlackOil

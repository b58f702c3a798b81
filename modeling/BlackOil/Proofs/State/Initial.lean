import BlackOil.Proofs.Batch
import BlackOil.Proofs.Permeability.Cell
import BlackOil.State.Initial

/-!
# Initial states of cells

What a deck says about the initial state of one cartesian cell. The states of a topology are
found exactly if the deck gives all that is needed and says of every active cell that its
saturations are consistent and that its oil holds a possible share of gas.
-/
namespace BlackOil
variable {α : Type} [Scalar α]

namespace OilGas

/-- A share of gas that oil can hold. -/
def possible (fraction : α) : Bool := !(decide (fraction < 0.0) || decide (1.0 < fraction))

section Pairs
variable {m : OilGas α} {gas factor : Batch α} {pairs : Batch (α × α)}

/-- Paired entries are converted each for itself, or all refused. -/
theorem moleFractions_of_combine (h : Batch.combine Prod.mk gas factor = .ok pairs) :
    (∀ p ∈ pairs.values, possible (m.massFraction p.1 p.2)) ∧
        m.moleFractions gas factor =
          .ok (pairs.map fun p => m.moleFraction (m.massFraction p.1 p.2)) ∨
      (∃ p ∈ pairs.values, ¬possible (m.massFraction p.1 p.2)) ∧
        ∃ least greatest, m.moleFractions gas factor = .error (.massFractions least greatest) := by
  have hcombine : Batch.combine m.massFraction gas factor =
      .ok (pairs.map fun p => m.massFraction p.1 p.2) := by
    rw [Batch.combine_eq_map, h]
    rfl
  have hmap : Batch.map m.moleFraction (pairs.map fun p => m.massFraction p.1 p.2) =
      pairs.map fun p => m.moleFraction (m.massFraction p.1 p.2) := by
    simp only [Batch.map, List.map_map, Function.comp_def]
  have hany : ((pairs.map fun p => m.massFraction p.1 p.2).values.any
      fun X => X < 0.0 || 1.0 < X) = true ↔
        ∃ p ∈ pairs.values, ¬possible (m.massFraction p.1 p.2) := by
    simp only [Batch.map, List.any_map, List.any_eq_true, possible, Function.comp_apply,
      Bool.not_eq_true', Bool.not_eq_false]
  have hall : (¬∃ p ∈ pairs.values, ¬possible (m.massFraction p.1 p.2)) ↔
      ∀ p ∈ pairs.values, possible (m.massFraction p.1 p.2) := by
    simp only [not_exists, not_and, Classical.not_not]
  unfold moleFractions
  rw [hcombine, Outcome.ok_bind, hmap]
  split
  · split
    · rename_i hbad
      exact .inr ⟨hany.mp hbad, _, _, rfl⟩
    · rename_i hgood
      exact .inl ⟨hall.mp fun hbad => hgood (hany.mpr hbad), rfl⟩
  · rename_i hnil
    have hempty : pairs.values = [] := List.map_eq_nil_iff.mp hnil
    exact .inl ⟨by simp [hempty], rfl⟩

theorem moleFractions_eq_ok_iff (h : Batch.combine Prod.mk gas factor = .ok pairs)
    {out : Batch α} : m.moleFractions gas factor = .ok out ↔
      (∀ p ∈ pairs.values, possible (m.massFraction p.1 p.2)) ∧
        out = pairs.map fun p => m.moleFraction (m.massFraction p.1 p.2) := by
  obtain ⟨hall, hok⟩ | ⟨⟨p, hp, hbad⟩, least, greatest, herror⟩ :=
    moleFractions_of_combine (m := m) h
  · rw [hok, Except.ok.injEq, eq_comm]
    exact ⟨fun hout => ⟨hall, hout⟩, fun hout => hout.2⟩
  · rw [herror]
    exact ⟨nofun, fun hout => absurd (hout.1 p hp) hbad⟩

end Pairs

theorem moleFractions_map_eq_ok_iff {β : Type} {m : OilGas α} {gas factor : β → α} {l : List β}
    {out : Batch α} :
    m.moleFractions (Batch.ofList (l.map gas)) (Batch.ofList (l.map factor)) = .ok out ↔
      (∀ b ∈ l, possible (m.massFraction (gas b) (factor b))) ∧
        out = Batch.ofList (l.map fun b => m.moleFraction (m.massFraction (gas b) (factor b))) := by
  have hlength : (l.map gas).length = (l.map factor).length := by simp
  have hcombine := Batch.combine_ofList Prod.mk hlength
  rw [List.zipWith_map, List.zipWith_self] at hcombine
  rw [moleFractions_eq_ok_iff hcombine]
  simp [Batch.map, Batch.ofList, Function.comp_def]

end OilGas

omit [Scalar α] in
theorem InitialStates.state_eq_ok {s : InitialStates α} {a : Nat} {cellState : FluidState α}
    (h : s.cells[a]? = some cellState) : s.state a = .ok cellState := by
  rw [state, getElem?_natCast, h]

/-- What a deck says about the initial state of a cell. -/
def Deck.cellData? (deck : Deck α) (cell : Nat) : Option (CellData α) := do
  return ⟨← deck.value? "SWAT" cell, ← deck.value? "SGAS" cell, ← deck.value? "PRESSURE" cell,
    ← deck.value? "RS" cell⟩

namespace CellData

/-- The keywords of the initial state. -/
def keywords : List String := ["SWAT", "SGAS", "PRESSURE", "RS"]

theorem reads_cellData?_iff {deck : Deck α} {cells : Array Nat} {out : Array (CellData α)} :
    Reads deck.cellData? cells out ↔ ∃ ws gs ps rs, Reads (deck.value? "SWAT") cells ws ∧
      Reads (deck.value? "SGAS") cells gs ∧ Reads (deck.value? "PRESSURE") cells ps ∧
      Reads (deck.value? "RS") cells rs ∧
      out = ((ws.zip gs).zip (ps.zip rs)).map fun ((w, g), (p, rs)) => ⟨w, g, p, rs⟩ := by
  have hjoin : deck.cellData? = fun c =>
      (((deck.value? "SWAT" c).bind fun w => (deck.value? "SGAS" c).map (w, ·)).bind
        fun q => ((deck.value? "PRESSURE" c).bind
          fun p => (deck.value? "RS" c).map (p, ·)).map (q, ·)).map
            fun ((w, g), (p, rs)) => ⟨w, g, p, rs⟩ := by
    funext c
    simp only [Deck.cellData?]
    cases deck.value? "SWAT" c <;> cases deck.value? "SGAS" c <;>
      cases deck.value? "PRESSURE" c <;> cases deck.value? "RS" c <;> rfl
  rw [hjoin, reads_map_iff]
  simp only [reads_zip_iff]
  constructor
  · intro h
    obtain ⟨_, ⟨_, _, ⟨ws, gs, hw, hg, rfl⟩, ⟨ps, rs, hp, hr, rfl⟩, rfl⟩, rfl⟩ := h
    exact ⟨ws, gs, ps, rs, hw, hg, hp, hr, rfl⟩
  · intro h
    obtain ⟨ws, gs, ps, rs, hw, hg, hp, hr, rfl⟩ := h
    exact ⟨_, ⟨_, _, ⟨ws, gs, hw, hg, rfl⟩, ⟨ps, rs, hp, hr, rfl⟩, rfl⟩, rfl⟩

theorem ofDeck_eq_ok_iff {deck : Deck α} {t : Topology} {out : Array (CellData α)} :
    ofDeck deck t = .ok out ↔ ∃ cells, t.cells = .ok cells ∧
      (∀ keyword ∈ keywords, (deck.array? keyword).isSome) ∧ Reads deck.cellData? cells out := by
  have hread : ∀ {keyword reason : String} {cells : Array Nat} {values : Array α},
      (do gather keyword (← deck.array keyword reason).reals cells) = .ok values ↔
        (deck.array? keyword).isSome ∧ Reads (deck.value? keyword) cells values := by
    intro keyword reason cells values
    simp only [Outcome.bind_eq_ok_iff, Deck.array_eq_ok_iff]
    constructor
    · intro h
      obtain ⟨given, hv, h⟩ := h
      exact ⟨by simp [hv], (gather_eq_ok_iff_value? hv).mp h⟩
    · intro h
      obtain ⟨hv, h⟩ := h
      obtain ⟨given, hv⟩ := Option.isSome_iff_exists.mp hv
      exact ⟨given, hv, (gather_eq_ok_iff_value? hv).mpr h⟩
  unfold ofDeck
  rw [Outcome.bind_eq_ok_iff]
  refine exists_congr fun cells => and_congr_right fun _ => ?_
  simp only [Outcome.bind_eq_ok_iff, Outcome.pure_eq_ok_iff]
  simp only [← Outcome.bind_eq_ok_iff, hread, reads_cellData?_iff, keywords, List.forall_mem_cons]
  constructor
  · intro h
    obtain ⟨ws, ⟨hw, hws⟩, gs, ⟨hg, hgs⟩, ps, ⟨hp, hps⟩, rs, ⟨hr, hrs⟩, rfl⟩ := h
    exact ⟨⟨hw, hg, hp, hr, List.forall_mem_nil _⟩, ws, gs, ps, rs, hws, hgs, hps, hrs, rfl⟩
  · intro h
    obtain ⟨⟨hw, hg, hp, hr, -⟩, ws, gs, ps, rs, hws, hgs, hps, hrs, rfl⟩ := h
    exact ⟨ws, ⟨hw, hws⟩, gs, ⟨hg, hgs⟩, ps, ⟨hp, hps⟩, rs, ⟨hr, hrs⟩, rfl⟩

theorem check_eq_ok_iff {tolerance : α} {data : Array (CellData α)} {u : Unit} :
    check tolerance data = .ok u ↔ ∀ d ∈ data, ¬inconsistent tolerance d := by
  have hfind : data.find? (inconsistent tolerance) = none ↔
      data.findIdx? (inconsistent tolerance) = none := by
    rw [Array.find?_eq_none, Array.findIdx?_eq_none_iff]
    simp
  unfold check
  split
  · rename_i active d hi hd
    simp only [reduceCtorEq, false_iff]
    intro h
    rw [Array.find?_eq_none.mpr h] at hd
    cases hd
  · rename_i hboth
    simp only [true_iff]
    rw [← Array.find?_eq_none]
    cases hd : data.find? (inconsistent tolerance) with
    | none => rfl
    | some d =>
      cases hi : data.findIdx? (inconsistent tolerance) with
      | none => rw [hfind.mpr hi] at hd; cases hd
      | some active => exact absurd hd (hboth active d hi)

/-- The share of gas in the initial oil of a cell. -/
def massFraction (m : OilGas α) (f : FluidSystem α) (floor : α) (cap : Bool) (d : CellData α) : α :=
  m.massFraction (d.initialGas f cap) (d.initialVolumeFactor f floor cap)

end CellData

/-- The initial state of a cell, if the deck describes one that can be. -/
def Deck.initialState? (deck : Deck α) (precision : Precision) (floor : α) (f : FluidSystem α)
    (m : OilGas α) (config : Config α) (cell : Nat) : Option (FluidState α) :=
  let fraction := CellData.massFraction m f floor config.capDissolvedGas
  ((deck.cellData? cell).filter fun d =>
    !d.inconsistent config.saturationTolerance && OilGas.possible (fraction d)).map fun d =>
      (d.state config.temperature (m.moleFraction (fraction d))).map precision.cast

theorem reads_initialState?_iff {precision : Precision} {floor : α} {deck : Deck α}
    {f : FluidSystem α} {m : OilGas α} {config : Config α} {cells : Array Nat}
    {out : Array (FluidState α)} :
    Reads (deck.initialState? precision floor f m config) cells out ↔ ∃ data,
      Reads deck.cellData? cells data ∧
        (∀ d ∈ data, ¬d.inconsistent config.saturationTolerance) ∧
        (∀ d ∈ data, OilGas.possible (d.massFraction m f floor config.capDissolvedGas)) ∧
        out = data.map fun d => (d.state config.temperature
          (m.moleFraction (d.massFraction m f floor config.capDissolvedGas))).map
            precision.cast := by
  have hstate : deck.initialState? precision floor f m config = fun c =>
      ((deck.cellData? c).filter fun d => !d.inconsistent config.saturationTolerance &&
        OilGas.possible (d.massFraction m f floor config.capDissolvedGas)).map fun d =>
          (d.state config.temperature
            (m.moleFraction (d.massFraction m f floor config.capDissolvedGas))).map
              precision.cast := rfl
  rw [hstate, reads_map_iff]
  simp only [reads_filter_iff, Bool.and_eq_true, Bool.not_eq_true', Bool.not_eq_true,
    forall_and, and_assoc]

/-- The states are those that the deck describes, each of them possible. -/
theorem initialStates_eq_ok_iff {precision : Precision} {floor : α} {deck : Deck α}
    {t : Topology} {f : FluidSystem α} {config : Config α} {s : InitialStates α} :
    initialStates precision floor deck t f config = .ok s ↔ ∃ cells, t.cells = .ok cells ∧
      (∀ keyword ∈ CellData.keywords, (deck.array? keyword).isSome) ∧
        ∃ m, f.oilGas = .ok m ∧ s.precision = precision ∧
          Reads (deck.initialState? precision floor f m config) cells s.cells := by
  obtain ⟨precision', states⟩ := s
  have hzip : ∀ (data : Array (CellData α)) (x : CellData α → α),
      (data.zip (Batch.ofList (data.toList.map x)).values.toArray).map
          (fun p => (p.1.state config.temperature p.2).map precision.cast) =
        data.map fun d => (d.state config.temperature (x d)).map precision.cast := by
    intro data x
    apply Array.ext'
    simp [Batch.ofList, Array.zip_eq_zipWith, List.zipWith_map_right, List.zipWith_self]
  simp only [initialStates, Outcome.bind_eq_ok_iff, CellData.ofDeck_eq_ok_iff,
    OilGas.moleFractions_map_eq_ok_iff, CellData.check_eq_ok_iff, reads_initialState?_iff,
    Outcome.pure_eq_ok_iff, Array.mem_toList_iff]
  constructor
  · intro h
    obtain ⟨data, ⟨cells, hcells, hk, hd⟩, -, hc, m, hm, _, ⟨hp, rfl⟩, h⟩ := h
    rw [hzip] at h
    cases h
    exact ⟨cells, hcells, hk, m, hm, rfl, data, hd, hc, hp, rfl⟩
  · intro h
    obtain ⟨cells, hcells, hk, m, hm, rfl, data, hd, hc, hp, rfl⟩ := h
    refine ⟨data, ⟨cells, hcells, hk, hd⟩, (), hc, m, hm, _, ⟨hp, rfl⟩, ?_⟩
    rw [hzip]
    rfl

/-- The state of every active cell is the one that the deck describes, and has been found
possible. -/
theorem exists_state_of_initialStates {precision : Precision} {floor : α} {deck : Deck α}
    {t : Topology} {f : FluidSystem α} {m : OilGas α} {config : Config α} {s : InitialStates α}
    (hm : f.oilGas = .ok m) (h : initialStates precision floor deck t f config = .ok s)
    {active : Int} (hactive : 0 ≤ active ∧ active < t.numActive) :
    ∃ (cell : Nat) (d : CellData α), t.cartesianIndex active = .ok cell ∧
      deck.cellData? cell = some d ∧ ¬d.inconsistent config.saturationTolerance ∧
      OilGas.possible (d.massFraction m f floor config.capDissolvedGas) ∧
      s.state active = .ok ((d.state config.temperature
        (m.moleFraction (d.massFraction m f floor config.capDissolvedGas))).map precision.cast) := by
  obtain ⟨cells, hcells, -, m', hm', -, hreads⟩ := initialStates_eq_ok_iff.mp h
  cases hm.symm.trans hm'
  obtain ⟨a, rfl⟩ := Int.eq_ofNat_of_zero_le hactive.1
  have hsize : a < cells.size := by
    rw [Topology.size_of_cells_eq_ok hcells]
    exact Int.ofNat_lt.mp hactive.2
  have hcell := Array.getElem?_eq_getElem hsize
  obtain ⟨state, hstate, hfound⟩ := hreads.exists_entry hcell
  obtain ⟨d, hd, rfl⟩ := Option.map_eq_some_iff.mp hstate
  obtain ⟨hd, hpossible⟩ := Option.filter_eq_some_iff.mp hd
  rw [Bool.and_eq_true, Bool.not_eq_true'] at hpossible
  refine ⟨_, d, Topology.cartesianIndex_of_cells_eq_ok hcells hcell, hd, ?_, hpossible.2,
    InitialStates.state_eq_ok hfound⟩
  rw [hpossible.1]
  exact Bool.false_ne_true

end BlackOil

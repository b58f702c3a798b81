import BlackOil.Model
import BlackOil.Proofs.Grid.Gather

/-!
# Decks that agree on some cells

The stages of a model gather the values of the active cells before they look at any. Two
decks with the same tables and with arrays that agree on the active cells of a grid have
therefore equal models on it, or are refused with the same fault. No stage reads the mask;
only the grid does.
-/
namespace BlackOil
variable {α : Type}

/-- The value of a cell, real or whole. -/
def CellValues.valueAt? (values : CellValues α) (cell : Nat) : Option (α ⊕ Int) :=
  match values with
  | .real values => values[cell]?.map .inl
  | .whole values => values[cell]?.map .inr

namespace CellValues

/-- Arrays of one length with the same values in the given cells. -/
structure Agree (cells : Array Nat) (values values' : CellValues α) : Prop where
  size_eq : values.size = values'.size
  entry_eq : ∀ c ∈ cells, values.valueAt? c = values'.valueAt? c

variable [Scalar α]

theorem size_reals (values : CellValues α) : values.reals.size = values.size := by
  cases values with
  | real values => rfl
  | whole values => exact Array.size_map

theorem size_wholes (values : CellValues α) : values.wholes.size = values.size := by
  cases values with
  | real values => exact Array.size_map
  | whole values => rfl

theorem getElem?_reals (values : CellValues α) (c : Nat) :
    values.reals[c]? = (values.valueAt? c).map (Sum.elim id Scalar.ofInt) := by
  cases values <;> simp [reals, valueAt?, Function.comp_def]

theorem getElem?_wholes (values : CellValues α) (c : Nat) :
    values.wholes[c]? = (values.valueAt? c).map (Sum.elim Scalar.toWord id) := by
  cases values <;> simp [wholes, valueAt?, Function.comp_def]

end CellValues

theorem gather_congr {β : Type} {keyword : String} {values values' : Array β} {cells : Array Nat}
    (hsize : values.size = values'.size) (h : ∀ c ∈ cells, values[c]? = values'[c]?) :
    gather keyword values cells = gather keyword values' cells := by
  cases hg : gather keyword values' cells with
  | ok out => exact gather_eq_ok_iff.mpr ((gather_eq_ok_iff.mp hg).congr fun c hc => (h c hc).symm)
  | error fault =>
    obtain ⟨hout, rfl⟩ := gather_eq_error_iff.mp hg
    rw [← hsize] at hout ⊢
    exact gather_eq_error_iff.mpr ⟨hout, rfl⟩

namespace CellValues.Agree
variable [Scalar α] {cells : Array Nat} {values values' : CellValues α}

theorem gather_reals (h : values.Agree cells values') (keyword : String) :
    gather keyword values.reals cells = gather keyword values'.reals cells := by
  apply gather_congr
  · rw [size_reals, size_reals, h.size_eq]
  · intro c hc
    rw [getElem?_reals, getElem?_reals, h.entry_eq c hc]

theorem gather_wholes (h : values.Agree cells values') (keyword : String) :
    gather keyword values.wholes cells = gather keyword values'.wholes cells := by
  apply gather_congr
  · rw [size_wholes, size_wholes, h.size_eq]
  · intro c hc
    rw [getElem?_wholes, getElem?_wholes, h.entry_eq c hc]

end CellValues.Agree

/-- Decks with the same tables and with arrays that agree in the given cells. Their masks are
left out. -/
structure Deck.Agree (cells : Array Nat) (deck deck' : Deck α) : Prop where
  tables_eq : ∀ keyword, deck.tables.find? keyword = deck'.tables.find? keyword
  /-- Where one deck has values, both have, and they agree. -/
  array?_cases : ∀ {keyword}, Text.upper keyword ≠ "ACTNUM" →
    deck.array? keyword = none ∧ deck'.array? keyword = none ∨
      ∃ values values', deck.array? keyword = some values ∧
        deck'.array? keyword = some values' ∧ values.Agree cells values'

namespace Deck.Agree
variable {cells : Array Nat} {deck deck' : Deck α} {keyword : String}

theorem tablesOf_eq (h : deck.Agree cells deck') : deck.tablesOf = deck'.tablesOf := by
  funext keyword reason
  rw [Deck.tablesOf, Deck.tablesOf, h.tables_eq]

/-- A step that reads a mandatory keyword, and whatever follows from its values. -/
theorem array_bind_congr {γ : Type} {reason : String} {f f' : CellValues α → Except Fault γ}
    (h : deck.Agree cells deck') (hk : Text.upper keyword ≠ "ACTNUM")
    (hf : ∀ values values', values.Agree cells values' → f values = f' values') :
    deck.array keyword reason >>= f = deck'.array keyword reason >>= f' := by
  unfold Deck.array
  obtain ⟨hd, hd'⟩ | ⟨values, values', hd, hd', hv⟩ := h.array?_cases hk
  · rw [hd, hd']
    rfl
  · rw [hd, hd']
    exact hf values values' hv

theorem getD (h : deck.Agree cells deck') (keyword : String)
    (hk : Text.upper keyword ≠ "ACTNUM") {values values' : CellValues α}
    (hv : values.Agree cells values') :
    ((deck.array? keyword).getD values).Agree cells ((deck'.array? keyword).getD values') := by
  obtain ⟨hd, hd'⟩ | ⟨given, given', hd, hd', hg⟩ := h.array?_cases hk
  · rwa [hd, hd']
  · rwa [hd, hd']

variable [Scalar α]

theorem gatherFactor_eq (h : deck.Agree cells deck') (keyword : String)
    (hk : Text.upper keyword ≠ "ACTNUM") :
    gatherFactor deck keyword cells = gatherFactor deck' keyword cells := by
  unfold gatherFactor
  obtain ⟨hd, hd'⟩ | ⟨values, values', hd, hd', hv⟩ := h.array?_cases hk
  · rw [hd, hd']
  · rw [hd, hd']
    exact hv.gather_reals keyword

variable {g : CartesianGrid} {precision : Precision}

theorem cellPorosities_eq (h : deck.Agree g.active deck') :
    cellPorosities precision deck g.topology = cellPorosities precision deck' g.topology := by
  unfold cellPorosities
  rw [g.topology_cells]
  refine h.array_bind_congr (by decide) fun poro poro' hp => ?_
  rw [hp.gather_reals, h.gatherFactor_eq "NTG" (by decide),
    h.gatherFactor_eq "MULTPV" (by decide)]

theorem cellPermeabilities_eq (h : deck.Agree g.active deck') :
    cellPermeabilities precision deck g.topology =
      cellPermeabilities precision deck' g.topology := by
  have hdiagonals : cellDiagonals deck g.topology = cellDiagonals deck' g.topology := by
    unfold cellDiagonals
    rw [g.topology_cells]
    refine h.array_bind_congr (by decide) fun permx permx' hx => ?_
    have hy := h.getD "PERMY" (by decide) hx
    have hz := h.getD "PERMZ" (by decide) hx
    simp only [Outcome.ok_bind, hx.gather_reals, hy.gather_reals, hz.gather_reals,
      h.gatherFactor_eq "NTG" (by decide)]
  rw [cellPermeabilities, cellPermeabilities, hdiagonals]

theorem facePermeabilities_eq (h : deck.Agree g.active deck') {tensors : Array (Tensor α)} :
    facePermeabilities precision deck g.topology tensors =
      facePermeabilities precision deck' g.topology tensors := by
  have hmultipliers : FaceMultipliers.ofDeck deck g.topology =
      FaceMultipliers.ofDeck deck' g.topology := by
    unfold FaceMultipliers.ofDeck
    rw [g.topology_cells]
    simp (disch := decide) only [Outcome.ok_bind, h.gatherFactor_eq]
  rw [facePermeabilities, facePermeabilities, hmultipliers]

theorem saturationFunctions_eq (h : deck.Agree g.active deck') :
    SaturationFunctions.ofDeck deck g.topology = SaturationFunctions.ofDeck deck' g.topology := by
  have hlaws : saturationLaws deck = saturationLaws deck' := by
    rw [saturationLaws, saturationLaws, h.tablesOf_eq]
  have hregions : ∀ count, cellRegions deck g.topology count =
      cellRegions deck' g.topology count := by
    intro count
    unfold cellRegions
    obtain ⟨hd, hd'⟩ | ⟨values, values', hd, hd', hv⟩ :=
      h.array?_cases (show Text.upper "SATNUM" ≠ "ACTNUM" by decide)
    · rw [hd, hd']
    · simp only [hd, hd', g.topology_cells, Outcome.ok_bind, hv.gather_wholes]
  simp only [SaturationFunctions.ofDeck, hlaws, hregions]

theorem fluidSystem_eq (h : deck.Agree g.active deck') (constants : Constants α)
    (masses : PerComponent (Option α)) :
    FluidSystem.ofDeck constants deck masses = FluidSystem.ofDeck constants deck' masses := by
  have hfirst : FluidSystem.firstTable deck = FluidSystem.firstTable deck' := by
    funext keyword reason
    rw [FluidSystem.firstTable, FluidSystem.firstTable, h.tablesOf_eq]
  rw [FluidSystem.ofDeck, FluidSystem.ofDeck, hfirst]

theorem initialStates_eq (h : deck.Agree g.active deck') {floor : α} {fluids : FluidSystem α}
    {config : Config α} : initialStates precision floor deck g.topology fluids config =
      initialStates precision floor deck' g.topology fluids config := by
  have hread : ∀ keyword reason, Text.upper keyword ≠ "ACTNUM" →
      (deck.array keyword reason >>= fun values => gather keyword values.reals g.active) =
        deck'.array keyword reason >>= fun values => gather keyword values.reals g.active :=
    fun keyword reason hk => h.array_bind_congr hk fun _ _ hv => hv.gather_reals keyword
  have hdata : CellData.ofDeck deck g.topology = CellData.ofDeck deck' g.topology := by
    unfold CellData.ofDeck
    rw [g.topology_cells]
    simp (disch := decide) only [Outcome.ok_bind, hread]
  rw [initialStates, initialStates, hdata]

/-- No stage of a model looks at the values of other cells than the active ones. -/
theorem assemble_eq (h : deck.Agree g.active deck') (s : Session α) (config : Config α) :
    ReservoirModel.assemble s deck g.topology config =
      ReservoirModel.assemble s deck' g.topology config := by
  unfold ReservoirModel.assemble
  simp only [h.fluidSystem_eq, h.cellPorosities_eq, h.cellPermeabilities_eq,
    h.facePermeabilities_eq, h.saturationFunctions_eq, h.initialStates_eq]

end Deck.Agree

namespace CellValues
variable [Scalar α]

/-- Which cells an array leaves active, as the mask of a grid. -/
def mask (values : CellValues α) : List Bool := values.wholes.toList.map (· != 0)

theorem length_mask (values : CellValues α) : values.mask.length = values.size := by
  rw [mask, List.length_map, Array.length_toList, size_wholes]

theorem getElem?_mask_iff (values : CellValues α) (cell : Nat) :
    values.mask[cell]? = some true ↔ ∃ n, values.wholes[cell]? = some n ∧ n ≠ 0 := by
  simp [mask]

/-- Two arrays of one length leave the same cells active only with the same mask. -/
theorem mask_eq_of_forall {values values' : CellValues α} (hsize : values.size = values'.size)
    (h : ∀ cell : Nat, values.mask[cell]? = some true ↔ values'.mask[cell]? = some true) :
    values.mask = values'.mask := by
  have hlength : values.mask.length = values'.mask.length := by
    rw [length_mask, length_mask, hsize]
  refine List.ext_getElem hlength fun cell hc hc' => ?_
  have hcell := h cell
  rw [List.getElem?_eq_getElem hc, List.getElem?_eq_getElem hc', Option.some.injEq,
    Option.some.injEq] at hcell
  exact Bool.eq_iff_iff.mpr hcell

end CellValues

end BlackOil

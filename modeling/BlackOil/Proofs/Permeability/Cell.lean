import BlackOil.Permeability.Cell
import BlackOil.Proofs.Grid.Gather

/-!
# Cell properties from the deck

What a deck says about one cartesian cell: the value of a keyword, the permeability
along each axis, the porosity, and the multipliers of its faces. The stages that build the
cell properties succeed exactly if the deck says so for every active cell, and give these
values.
-/
namespace BlackOil
variable {α : Type} [Scalar α]

namespace Deck

omit [Scalar α] in
theorem array_eq_ok_iff {deck : Deck α} {keyword reason : String} {values : CellValues α} :
    deck.array keyword reason = .ok values ↔ deck.array? keyword = some values := by
  unfold array
  cases deck.array? keyword <;> simp

omit [Scalar α] in
theorem mem_of_array? {deck : Deck α} {keyword : String} {values : CellValues α}
    (h : deck.array? keyword = some values) :
    (Text.upper keyword, values) ∈ deck.arrays.entries :=
  Catalog.mem_of_find? h

/-- The value of a keyword in a cell. -/
def value? (deck : Deck α) (keyword : String) (cell : Nat) : Option α :=
  (deck.array? keyword).bind fun values => values.reals[cell]?

/-- The value of a keyword in a cell, or that of another keyword where it is absent. -/
def valueOr? (deck : Deck α) (keyword other : String) (cell : Nat) : Option α :=
  if (deck.array? keyword).isSome then deck.value? keyword cell else deck.value? other cell

/-- The value of an optional keyword in a cell, one where it is absent. -/
def factor? (deck : Deck α) (keyword : String) (cell : Nat) : Option α :=
  match deck.array? keyword with
  | none => some 1.0
  | some values => values.reals[cell]?

/-- The permeability of a cell along an axis. -/
def permeability? (deck : Deck α) (cell : Nat) : Axis → Option α
  | .x => do return (← deck.value? "PERMX" cell) * (← deck.factor? "NTG" cell)
  | .y => do return (← deck.valueOr? "PERMY" "PERMX" cell) * (← deck.factor? "NTG" cell)
  | .z => deck.valueOr? "PERMZ" "PERMX" cell

/-- The permeabilities of a cell along the three axes. -/
def diagonal? (deck : Deck α) (cell : Nat) : Option (Triple α) := do
  return ⟨← deck.permeability? cell .x, ← deck.permeability? cell .y,
    ← deck.permeability? cell .z⟩

/-- The porosity of a cell. -/
def porosity? (deck : Deck α) (cell : Nat) : Option α := do
  return (← deck.value? "PORO" cell) * (← deck.factor? "NTG" cell) *
    (← deck.factor? "MULTPV" cell)

end Deck

/-- The keyword of the multipliers on the faces in a direction. -/
def Direction.multiplier (d : Direction) : String :=
  "MULT" ++ d.axis.name ++ if d.positive then "" else "-"

namespace Deck

/-- The multipliers of the three positive or the three negative faces of a cell. -/
def multipliers? (deck : Deck α) (positive : Bool) (cell : Nat) : Option (Triple α) := do
  return ⟨← deck.factor? (Direction.multiplier ⟨.x, positive⟩) cell,
    ← deck.factor? (Direction.multiplier ⟨.y, positive⟩) cell,
    ← deck.factor? (Direction.multiplier ⟨.z, positive⟩) cell⟩

theorem get_of_diagonal? {deck : Deck α} {cell : Nat} {d : Triple α}
    (h : deck.diagonal? cell = some d) (axis : Axis) :
    deck.permeability? cell axis = some (d.get axis) := by
  simp only [diagonal?, bind, Option.bind_eq_some_iff, pure, Option.some.injEq] at h
  obtain ⟨x, hx, y, hy, z, hz, rfl⟩ := h
  cases axis
  · exact hx
  · exact hy
  · exact hz

theorem get_of_multipliers? {deck : Deck α} {positive : Bool} {cell : Nat} {m : Triple α}
    (h : deck.multipliers? positive cell = some m) (axis : Axis) :
    deck.factor? (Direction.multiplier ⟨axis, positive⟩) cell = some (m.get axis) := by
  simp only [multipliers?, bind, Option.bind_eq_some_iff, pure, Option.some.injEq] at h
  obtain ⟨x, hx, y, hy, z, hz, rfl⟩ := h
  cases axis
  · exact hx
  · exact hy
  · exact hz

end Deck

theorem gatherFactor_eq_ok_iff {deck : Deck α} {keyword : String} {cells : Array Nat}
    {out : Array α} :
    gatherFactor deck keyword cells = .ok out ↔ Reads (deck.factor? keyword) cells out := by
  unfold gatherFactor
  cases h : deck.array? keyword with
  | none =>
    have hone : deck.factor? keyword = fun _ => some 1.0 := by
      funext c
      simp [Deck.factor?, h]
    have hreads : Reads (fun _ => some (1.0 : α)) cells (cells.map fun _ => 1.0) := by
      simp [Reads, Function.comp_def]
    rw [hone, Except.ok.injEq]
    constructor
    · rintro rfl
      exact hreads
    · intro ho
      exact hreads.unique ho
  | some values =>
    have hval : deck.factor? keyword = (values.reals[·]?) := by
      funext c
      simp [Deck.factor?, h]
    rw [hval]
    exact gather_eq_ok_iff

theorem gatherFactor_eq_error_iff {deck : Deck α} {keyword : String} {cells : Array Nat}
    {fault : Fault} : gatherFactor deck keyword cells = .error fault ↔
      ∃ values, deck.array? keyword = some values ∧ (∃ c ∈ cells, values.reals.size ≤ c) ∧
        fault = .beyondValues (cells.foldl max 0) values.reals.size keyword := by
  unfold gatherFactor
  cases deck.array? keyword with
  | none => simp
  | some values => simp [gather_eq_error_iff]

theorem gather_eq_ok_iff_value? {deck : Deck α} {keyword : String} {values : CellValues α}
    (h : deck.array? keyword = some values) {cells : Array Nat} {out : Array α} :
    gather keyword values.reals cells = .ok out ↔ Reads (deck.value? keyword) cells out := by
  have hval : deck.value? keyword = (values.reals[·]?) := by
    funext c
    simp [Deck.value?, h]
  rw [hval]
  exact gather_eq_ok_iff

theorem gather_eq_ok_iff_valueOr? {deck : Deck α} {keyword other : String}
    {values : CellValues α} (h : deck.array? other = some values) {cells : Array Nat}
    {out : Array α} :
    gather keyword ((deck.array? keyword).getD values).reals cells = .ok out ↔
      Reads (deck.valueOr? keyword other) cells out := by
  have hval : deck.valueOr? keyword other =
      (((deck.array? keyword).getD values).reals[·]?) := by
    funext c
    unfold Deck.valueOr? Deck.value?
    cases deck.array? keyword <;> simp [h]
  rw [hval]
  exact gather_eq_ok_iff

theorem reads_diagonal?_iff {deck : Deck α} {cells : Array Nat} {out : Array (Triple α)} :
    Reads deck.diagonal? cells out ↔ ∃ xs ys zs ntgs, Reads (deck.value? "PERMX") cells xs ∧
      Reads (deck.valueOr? "PERMY" "PERMX") cells ys ∧
      Reads (deck.valueOr? "PERMZ" "PERMX") cells zs ∧ Reads (deck.factor? "NTG") cells ntgs ∧
      out = ((xs.zip ys).zip (zs.zip ntgs)).map
        fun ((x, y), (z, ntg)) => ⟨x * ntg, y * ntg, z⟩ := by
  have hjoin : deck.diagonal? = fun c =>
      (((deck.value? "PERMX" c).bind fun x => (deck.valueOr? "PERMY" "PERMX" c).map (x, ·)).bind
        fun p => ((deck.valueOr? "PERMZ" "PERMX" c).bind
          fun z => (deck.factor? "NTG" c).map (z, ·)).map (p, ·)).map
            fun ((x, y), (z, ntg)) => ⟨x * ntg, y * ntg, z⟩ := by
    funext c
    simp only [Deck.diagonal?, Deck.permeability?]
    cases deck.value? "PERMX" c <;> cases deck.valueOr? "PERMY" "PERMX" c <;>
      cases deck.valueOr? "PERMZ" "PERMX" c <;> cases deck.factor? "NTG" c <;> rfl
  rw [hjoin, reads_map_iff]
  simp only [reads_zip_iff]
  constructor
  · intro h
    obtain ⟨_, ⟨_, _, ⟨xs, ys, hx, hy, rfl⟩, ⟨zs, ntgs, hz, hn, rfl⟩, rfl⟩, rfl⟩ := h
    exact ⟨xs, ys, zs, ntgs, hx, hy, hz, hn, rfl⟩
  · intro h
    obtain ⟨xs, ys, zs, ntgs, hx, hy, hz, hn, rfl⟩ := h
    exact ⟨_, ⟨_, _, ⟨xs, ys, hx, hy, rfl⟩, ⟨zs, ntgs, hz, hn, rfl⟩, rfl⟩, rfl⟩

/-- The diagonals are those that the deck gives in the cells. -/
theorem cellDiagonals_eq_ok_iff {deck : Deck α} {t : Topology} {out : Array (Triple α)} :
    cellDiagonals deck t = .ok out ↔ (deck.array? "PERMX").isSome ∧
      ∃ cells, t.cells = .ok cells ∧ Reads deck.diagonal? cells out := by
  simp only [cellDiagonals, Outcome.bind_eq_ok_iff, Deck.array_eq_ok_iff, reads_diagonal?_iff]
  constructor
  · intro h
    obtain ⟨permx, hp, cells, hc, xs, hx, ys, hy, zs, hz, ntgs, hn, h⟩ := h
    rw [gather_eq_ok_iff_value? hp] at hx
    rw [gather_eq_ok_iff_valueOr? hp] at hy hz
    rw [gatherFactor_eq_ok_iff] at hn
    cases h
    exact ⟨by simp [hp], cells, hc, xs, ys, zs, ntgs, hx, hy, hz, hn, rfl⟩
  · intro h
    obtain ⟨hp, cells, hc, xs, ys, zs, ntgs, hx, hy, hz, hn, rfl⟩ := h
    obtain ⟨permx, hp⟩ := Option.isSome_iff_exists.mp hp
    exact ⟨permx, hp, cells, hc, xs, (gather_eq_ok_iff_value? hp).mpr hx,
      ys, (gather_eq_ok_iff_valueOr? hp).mpr hy, zs, (gather_eq_ok_iff_valueOr? hp).mpr hz,
      ntgs, gatherFactor_eq_ok_iff.mpr hn, rfl⟩

/-- The tensors of the active cells are diagonal, with the permeabilities that the deck
gives. -/
theorem cellPermeabilities_eq_ok_iff {precision : Precision} {deck : Deck α} {t : Topology}
    {out : Array (Tensor α)} : cellPermeabilities precision deck t = .ok out ↔
      (deck.array? "PERMX").isSome ∧ ∃ cells diagonals, t.cells = .ok cells ∧
        Reads deck.diagonal? cells diagonals ∧
        out = diagonals.map fun d => (Tensor.diagonal d).map precision.cast := by
  simp only [cellPermeabilities, Outcome.bind_eq_ok_iff, cellDiagonals_eq_ok_iff]
  constructor
  · intro h
    obtain ⟨diagonals, ⟨hp, cells, hc, hd⟩, h⟩ := h
    cases h
    exact ⟨hp, cells, diagonals, hc, hd, rfl⟩
  · intro h
    obtain ⟨hp, cells, diagonals, hc, hd, rfl⟩ := h
    exact ⟨diagonals, ⟨hp, cells, hc, hd⟩, rfl⟩

theorem reads_porosity?_iff {deck : Deck α} {cells : Array Nat} {out : Array α} :
    Reads deck.porosity? cells out ↔ ∃ poros ntgs factors,
      Reads (deck.value? "PORO") cells poros ∧ Reads (deck.factor? "NTG") cells ntgs ∧
      Reads (deck.factor? "MULTPV") cells factors ∧
      out = ((poros.zip ntgs).zip factors).map fun ((poro, ntg), m) => poro * ntg * m := by
  have hjoin : deck.porosity? = fun c =>
      (((deck.value? "PORO" c).bind fun x => (deck.factor? "NTG" c).map (x, ·)).bind
        fun p => (deck.factor? "MULTPV" c).map (p, ·)).map
          fun ((poro, ntg), m) => poro * ntg * m := by
    funext c
    simp only [Deck.porosity?]
    cases deck.value? "PORO" c <;> cases deck.factor? "NTG" c <;>
      cases deck.factor? "MULTPV" c <;> rfl
  rw [hjoin, reads_map_iff]
  simp only [reads_zip_iff]
  constructor
  · intro h
    obtain ⟨_, ⟨_, factors, ⟨poros, ntgs, hp, hn, rfl⟩, hm, rfl⟩, rfl⟩ := h
    exact ⟨poros, ntgs, factors, hp, hn, hm, rfl⟩
  · intro h
    obtain ⟨poros, ntgs, factors, hp, hn, hm, rfl⟩ := h
    exact ⟨_, ⟨_, factors, ⟨poros, ntgs, hp, hn, rfl⟩, hm, rfl⟩, rfl⟩

/-- The porosities are those that the deck gives in the cells, none of them negative. -/
theorem cellPorosities_eq_ok_iff {precision : Precision} {deck : Deck α} {t : Topology}
    {out : Array α} : cellPorosities precision deck t = .ok out ↔
      (deck.array? "PORO").isSome ∧ ∃ cells porosities, t.cells = .ok cells ∧
        Reads deck.porosity? cells porosities ∧ (∀ x ∈ porosities, ¬x < 0.0) ∧
        out = porosities.map precision.cast := by
  simp only [cellPorosities, Outcome.bind_eq_ok_iff, Outcome.check_eq_ok_iff,
    Deck.array_eq_ok_iff, reads_porosity?_iff]
  constructor
  · intro h
    obtain ⟨cells, hc, poro, hp, poros, hx, ntgs, hn, factors, hm, hsign, h⟩ := h
    rw [gather_eq_ok_iff_value? hp] at hx
    rw [gatherFactor_eq_ok_iff] at hn hm
    cases h
    refine ⟨by simp [hp], cells, _, hc, ⟨poros, ntgs, factors, hx, hn, hm, rfl⟩, ?_, rfl⟩
    intro x hm hneg
    exact hsign (Array.any_eq_true'.mpr ⟨x, hm, decide_eq_true hneg⟩)
  · intro h
    obtain ⟨hp, cells, _, hc, ⟨poros, ntgs, factors, hx, hn, hm, rfl⟩, hsign, rfl⟩ := h
    obtain ⟨poro, hp⟩ := Option.isSome_iff_exists.mp hp
    refine ⟨cells, hc, poro, hp, poros, (gather_eq_ok_iff_value? hp).mpr hx, ntgs,
      gatherFactor_eq_ok_iff.mpr hn, factors, gatherFactor_eq_ok_iff.mpr hm, ?_, rfl⟩
    intro hany
    obtain ⟨x, hm, hneg⟩ := Array.any_eq_true'.mp hany
    exact hsign x hm (of_decide_eq_true hneg)

end BlackOil

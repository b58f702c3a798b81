import BlackOil.Proofs.Model.Agreement
import BlackOil.Proofs.Permeability.Face
import BlackOil.Proofs.Saturation.Region
import BlackOil.Proofs.State.Initial

/-!
# Bounds of gathered values

A topology may map its active cells anywhere, and the arrays of a deck without dimensions may
have any length. Every stage that gathers values for the active cells reads them at the mapped
indices or not at all: an index outside the cartesian grid or beyond an array that is read is
refused, and none is ever counted from the end of an array.
-/
namespace BlackOil
variable {α β : Type}

/-- Every active cell lies in the cartesian grid, and within each of the arrays that the deck
has among those of the keywords. -/
structure Topology.Within (t : Topology) (deck : Deck α) (keywords : List String) : Prop where
  grid : ∀ c ∈ t.cartesian, 0 ≤ c ∧ c < t.numCartesian
  arrays : ∀ keyword ∈ keywords, ∀ values, deck.array? keyword = some values →
    ∀ c ∈ t.cartesian, c < values.size

/-- An index that is out of range, or a keyword that is needed and that the deck lacks. -/
def Deck.Refuses (deck : Deck α) (needed : List String) (fault : Fault) : Prop :=
  fault.kind = .indexRange ∨ ∃ keyword ∈ needed, deck.array? keyword = none ∧
    ∃ reason, fault = .missingKeyword (Text.upper keyword) reason

/-- A stage that gives every active cell the value of its cartesian cell. It reads the arrays of
`keywords`, some of which are `needed`, and refuses a topology that leads outside of them. -/
structure GathersSafely (deck : Deck α) (t : Topology) (needed keywords : List String)
    (value : Nat → Option β) (stage : Except Fault (Array β)) : Prop where
  size_eq : ∀ out, stage = .ok out → out.size = t.numActive
  entry : ∀ out, stage = .ok out → ∀ (a : Nat) (c : Int), t.cartesian[a]? = some c →
    (0 ≤ c ∧ c < t.numCartesian ∧ ∀ keyword ∈ keywords, ∀ values,
      deck.array? keyword = some values → c < values.size) ∧
    ∃ b, value c.toNat = some b ∧ out[a]? = some b
  refuses : ¬t.Within deck keywords → ∃ fault, stage = .error fault ∧ deck.Refuses needed fault

/-- What is read cell by cell, and only within bounds, is gathered safely. -/
theorem GathersSafely.of_reads {deck : Deck α} {t : Topology} {needed keywords : List String}
    {value : Nat → Option β} {stage : Except Fault (Array β)}
    (hreads : ∀ out, stage = .ok out → ∃ cells, t.cells = .ok cells ∧ Reads value cells out)
    (hwithin : Outcome.Demands (deck.Refuses needed) (t.Within deck keywords) stage) :
    GathersSafely deck t needed keywords value stage where
  size_eq out hout := by
    obtain ⟨cells, hcells, hreads⟩ := hreads out hout
    rw [hreads.size_eq, Topology.size_of_cells_eq_ok hcells]
  entry out hout a c hc := by
    obtain ⟨cells, hcells, hreads⟩ := hreads out hout
    obtain ⟨-, rfl⟩ := Topology.cells_eq_ok_iff.mp hcells
    have hbounds := hwithin.holds_of_eq_ok hout
    have hmem := Array.mem_of_getElem? hc
    have hcell : (t.cartesian.map Int.toNat)[a]? = some c.toNat := by
      rw [Array.getElem?_map, hc, Option.map_some]
    exact ⟨⟨(hbounds.grid c hmem).1, (hbounds.grid c hmem).2,
      fun keyword hk values hv => hbounds.arrays keyword hk values hv c hmem⟩,
      hreads.exists_entry hcell⟩
  refuses := hwithin

section Steps
variable {deck : Deck α} {t : Topology} {needed : List String}

theorem refuses_cells : Outcome.FailsOnly (deck.Refuses needed) t.cells := by
  intro fault h
  unfold Topology.cells at h
  split at h
  · cases h
    exact .inl rfl
  · cases h

theorem refuses_array {keyword : String} (h : keyword ∈ needed) (reason : String) :
    Outcome.FailsOnly (deck.Refuses needed) (deck.array keyword reason) := by
  intro fault hfault
  unfold Deck.array at hfault
  split at hfault
  · cases hfault
  · rename_i hnone
    cases hfault
    exact .inr ⟨keyword, h, hnone, reason, rfl⟩

theorem refuses_gather {keyword : String} {values : Array β} {cells : Array Nat} :
    Outcome.FailsOnly (deck.Refuses needed) (gather keyword values cells) := by
  intro fault h
  rw [(gather_eq_error_iff.mp h).2]
  exact .inl rfl

/-- What has been gathered from an array lies within it. -/
theorem lt_of_gather_eq_ok {keyword : String} {values : Array β} {cells : Array Nat}
    {out : Array β} (hcells : t.cells = .ok cells) (h : gather keyword values cells = .ok out) :
    ∀ c ∈ t.cartesian, c < values.size := by
  intro c hc
  obtain ⟨hinside, rfl⟩ := Topology.cells_eq_ok_iff.mp hcells
  have hsome := (gather_eq_ok_iff.mp h).isSome_of_mem (Array.mem_map_of_mem hc)
  have hlt : c.toNat < values.size := by simpa using hsome
  have := (hinside c hc).1
  omega

variable [Scalar α]

theorem refuses_gatherFactor {keyword : String} {cells : Array Nat} :
    Outcome.FailsOnly (deck.Refuses needed) (gatherFactor deck keyword cells) := by
  intro fault h
  obtain ⟨values, -, -, rfl⟩ := gatherFactor_eq_error_iff.mp h
  exact .inl rfl

theorem lt_of_gather_reals_eq_ok {keyword : String} {values : CellValues α} {cells : Array Nat}
    {out : Array α} (hcells : t.cells = .ok cells)
    (h : gather keyword values.reals cells = .ok out) : ∀ c ∈ t.cartesian, c < values.size := by
  have hlt := lt_of_gather_eq_ok hcells h
  rwa [values.size_reals] at hlt

/-- An optional array that is there is read within its bounds. -/
theorem lt_of_gatherFactor_eq_ok {keyword : String} {cells : Array Nat} {out : Array α}
    (hcells : t.cells = .ok cells) (h : gatherFactor deck keyword cells = .ok out)
    (values : CellValues α) (hvalues : deck.array? keyword = some values) :
    ∀ c ∈ t.cartesian, c < values.size := by
  unfold gatherFactor at h
  rw [hvalues] at h
  exact lt_of_gather_reals_eq_ok hcells h

end Steps

variable [Scalar α] (deck : Deck α) (t : Topology)

theorem demands_cellPermeabilities (precision : Precision) :
    Outcome.Demands (deck.Refuses ["PERMX"])
      (t.Within deck ["PERMX", "PERMY", "PERMZ", "NTG"]) (cellPermeabilities precision deck t) := by
  unfold cellPermeabilities cellDiagonals
  refine .bind_left <| .bind_right (refuses_array (by simp) _) fun permx hpermx =>
    .bind_right refuses_cells fun cells hcells =>
    .bind_right refuses_gather fun _ hx => .bind_right refuses_gather fun _ hy =>
    .bind_right refuses_gather fun _ hz => .bind_right refuses_gatherFactor fun _ hn =>
    .of_holds ⟨(Topology.cells_eq_ok_iff.mp hcells).1, ?_⟩
  -- The default of the last two axes is PERMX, so a given array is the one that was read.
  simp only [List.forall_mem_cons, List.not_mem_nil, false_implies, implies_true, and_true]
  refine ⟨?_, ?_, ?_, lt_of_gatherFactor_eq_ok hcells hn⟩
  · intro values hvalues
    cases (Deck.array_eq_ok_iff.mp hpermx).symm.trans hvalues
    exact lt_of_gather_reals_eq_ok hcells hx
  · intro values hvalues
    rw [hvalues] at hy
    exact lt_of_gather_reals_eq_ok hcells hy
  · intro values hvalues
    rw [hvalues] at hz
    exact lt_of_gather_reals_eq_ok hcells hz

theorem demands_cellPorosities (precision : Precision) :
    Outcome.Demands (deck.Refuses ["PORO"]) (t.Within deck ["PORO", "NTG", "MULTPV"])
      (cellPorosities precision deck t) := by
  unfold cellPorosities
  refine .bind_right refuses_cells fun cells hcells =>
    .bind_right (refuses_array (by simp) _) fun poro hporo =>
    .bind_right refuses_gather fun _ hp => .bind_right refuses_gatherFactor fun _ hn =>
    .bind_right refuses_gatherFactor fun _ hm =>
    .of_holds ⟨(Topology.cells_eq_ok_iff.mp hcells).1, ?_⟩
  simp only [List.forall_mem_cons, List.not_mem_nil, false_implies, implies_true, and_true]
  refine ⟨?_, lt_of_gatherFactor_eq_ok hcells hn, lt_of_gatherFactor_eq_ok hcells hm⟩
  intro values hvalues
  cases (Deck.array_eq_ok_iff.mp hporo).symm.trans hvalues
  exact lt_of_gather_reals_eq_ok hcells hp

/-- The keywords of the multipliers, in the order in which they are read. -/
def FaceMultipliers.keywords : List String :=
  ["MULTX", "MULTX-", "MULTY", "MULTY-", "MULTZ", "MULTZ-"]

theorem demands_faceMultipliers :
    Outcome.Demands (deck.Refuses []) (t.Within deck FaceMultipliers.keywords)
      (FaceMultipliers.ofDeck deck t) := by
  unfold FaceMultipliers.ofDeck
  refine .bind_right refuses_cells fun cells hcells =>
    .bind_right refuses_gatherFactor fun _ hx => .bind_right refuses_gatherFactor fun _ hx' =>
    .bind_right refuses_gatherFactor fun _ hy => .bind_right refuses_gatherFactor fun _ hy' =>
    .bind_right refuses_gatherFactor fun _ hz => .bind_right refuses_gatherFactor fun _ hz' =>
    .of_holds ⟨(Topology.cells_eq_ok_iff.mp hcells).1, ?_⟩
  simp only [FaceMultipliers.keywords, List.forall_mem_cons, List.not_mem_nil, false_implies,
    implies_true, and_true]
  exact ⟨lt_of_gatherFactor_eq_ok hcells hx, lt_of_gatherFactor_eq_ok hcells hx',
    lt_of_gatherFactor_eq_ok hcells hy, lt_of_gatherFactor_eq_ok hcells hy',
    lt_of_gatherFactor_eq_ok hcells hz, lt_of_gatherFactor_eq_ok hcells hz'⟩

theorem demands_cellRegions (count : Int) (h : (deck.array? "SATNUM").isSome) :
    Outcome.Demands (deck.Refuses []) (t.Within deck ["SATNUM"]) (cellRegions deck t count) := by
  obtain ⟨values, hvalues⟩ := Option.isSome_iff_exists.mp h
  unfold cellRegions
  rw [hvalues]
  refine .bind_right refuses_cells fun cells hcells => .bind_right refuses_gather fun _ hn =>
    .of_holds ⟨(Topology.cells_eq_ok_iff.mp hcells).1, ?_⟩
  simp only [List.forall_mem_cons, List.not_mem_nil, false_implies, implies_true, and_true]
  intro values' hvalues'
  cases hvalues.symm.trans hvalues'
  have hlt := lt_of_gather_eq_ok hcells hn
  rwa [values.size_wholes] at hlt

theorem demands_cellData :
    Outcome.Demands (deck.Refuses CellData.keywords) (t.Within deck CellData.keywords)
      (CellData.ofDeck deck t) := by
  have hread : ∀ {keyword reason : String} {cells : Array Nat}, keyword ∈ CellData.keywords →
      Outcome.FailsOnly (deck.Refuses CellData.keywords)
        (do gather keyword (← deck.array keyword reason).reals cells) := fun hk =>
    (refuses_array hk _).bind fun _ _ => refuses_gather
  have hlt : ∀ {keyword reason : String} {cells : Array Nat} {out : Array α},
      t.cells = .ok cells → (do gather keyword (← deck.array keyword reason).reals cells) = .ok out →
      ∀ values, deck.array? keyword = some values → ∀ c ∈ t.cartesian, c < values.size := by
    intro keyword reason cells out hcells h values hvalues
    obtain ⟨values', hvalues', h⟩ := Outcome.bind_eq_ok_iff.mp h
    cases (Deck.array_eq_ok_iff.mp hvalues').symm.trans hvalues
    exact lt_of_gather_reals_eq_ok hcells h
  unfold CellData.ofDeck
  refine .bind_right refuses_cells fun cells hcells =>
    .bind_right (hread (by simp [CellData.keywords])) fun _ hw =>
    .bind_right (hread (by simp [CellData.keywords])) fun _ hg =>
    .bind_right (hread (by simp [CellData.keywords])) fun _ hp =>
    .bind_right (hread (by simp [CellData.keywords])) fun _ hr =>
    .of_holds ⟨(Topology.cells_eq_ok_iff.mp hcells).1, ?_⟩
  simp only [CellData.keywords, List.forall_mem_cons, List.not_mem_nil, false_implies,
    implies_true, and_true]
  exact ⟨hlt hcells hw, hlt hcells hg, hlt hcells hp, hlt hcells hr⟩

theorem gathersSafely_cellPermeabilities (precision : Precision) :
    GathersSafely deck t ["PERMX"] ["PERMX", "PERMY", "PERMZ", "NTG"]
      (fun cell => (deck.diagonal? cell).map fun d => (Tensor.diagonal d).map precision.cast)
      (cellPermeabilities precision deck t) := by
  refine .of_reads (fun out hout => ?_) (demands_cellPermeabilities deck t precision)
  obtain ⟨-, cells, diagonals, hcells, hreads, rfl⟩ := cellPermeabilities_eq_ok_iff.mp hout
  exact ⟨cells, hcells, hreads.map _⟩

theorem gathersSafely_cellPorosities (precision : Precision) :
    GathersSafely deck t ["PORO"] ["PORO", "NTG", "MULTPV"]
      (fun cell => (deck.porosity? cell).map precision.cast) (cellPorosities precision deck t) := by
  refine .of_reads (fun out hout => ?_) (demands_cellPorosities deck t precision)
  obtain ⟨-, cells, porosities, hcells, hreads, -, rfl⟩ := cellPorosities_eq_ok_iff.mp hout
  exact ⟨cells, hcells, hreads.map _⟩

theorem gathersSafely_faceMultipliers :
    GathersSafely deck t [] FaceMultipliers.keywords (deck.multipliers? true)
      (FaceMultipliers.positive <$> FaceMultipliers.ofDeck deck t) ∧
    GathersSafely deck t [] FaceMultipliers.keywords (deck.multipliers? false)
      (FaceMultipliers.negative <$> FaceMultipliers.ofDeck deck t) := by
  constructor
  · refine .of_reads (fun out hout => ?_) ((demands_faceMultipliers deck t).map _)
    obtain ⟨m, hm, rfl⟩ := Outcome.map_eq_ok_iff.mp hout
    obtain ⟨cells, hcells, hpositive, -⟩ := FaceMultipliers.ofDeck_eq_ok_iff.mp hm
    exact ⟨cells, hcells, hpositive⟩
  · refine .of_reads (fun out hout => ?_) ((demands_faceMultipliers deck t).map _)
    obtain ⟨m, hm, rfl⟩ := Outcome.map_eq_ok_iff.mp hout
    obtain ⟨cells, hcells, -, hnegative⟩ := FaceMultipliers.ofDeck_eq_ok_iff.mp hm
    exact ⟨cells, hcells, hnegative⟩

theorem gathersSafely_cellRegions (count : Int) (h : (deck.array? "SATNUM").isSome) :
    GathersSafely deck t [] ["SATNUM"] deck.namedRegion? (cellRegions deck t count) := by
  have hdemands := demands_cellRegions deck t count h
  refine .of_reads (fun out hout => ?_) hdemands
  have hcells := Topology.cells_eq_ok (hdemands.holds_of_eq_ok hout).grid
  exact ⟨_, hcells, ((cellRegions_eq_ok_iff_of_cells hcells).mp hout).1⟩

theorem gathersSafely_cellData :
    GathersSafely deck t CellData.keywords CellData.keywords deck.cellData?
      (CellData.ofDeck deck t) := by
  refine .of_reads (fun out hout => ?_) (demands_cellData deck t)
  obtain ⟨cells, hcells, -, hreads⟩ := CellData.ofDeck_eq_ok_iff.mp hout
  exact ⟨cells, hcells, hreads⟩

theorem gathersSafely_initialStates (precision : Precision) (floor : α) (f : FluidSystem α)
    (config : Config α) :
    GathersSafely deck t CellData.keywords CellData.keywords
      (fun cell => f.oilGas.toOption.bind fun m =>
        deck.initialState? precision floor f m config cell)
      (InitialStates.cells <$> initialStates precision floor deck t f config) := by
  refine .of_reads (fun out hout => ?_) ((demands_cellData deck t).bind_left.map _)
  obtain ⟨s, hs, rfl⟩ := Outcome.map_eq_ok_iff.mp hout
  obtain ⟨cells, hcells, -, m, hm, -, hreads⟩ := initialStates_eq_ok_iff.mp hs
  simp only [Outcome.toOption_eq_some_iff.mpr hm, Option.bind_some]
  exact ⟨cells, hcells, hreads⟩

/-- Every stage that gathers values of a deck for the active cells of a topology reads them at
the mapped indices, and refuses an index out of range. Without `SATNUM` the regions need no
map. -/
theorem stages_gather_safely (precision : Precision) (floor : α) (count : Int)
    (f : FluidSystem α) (config : Config α) :
    GathersSafely deck t ["PERMX"] ["PERMX", "PERMY", "PERMZ", "NTG"]
      (fun cell => (deck.diagonal? cell).map fun d => (Tensor.diagonal d).map precision.cast)
      (cellPermeabilities precision deck t) ∧
    GathersSafely deck t ["PORO"] ["PORO", "NTG", "MULTPV"]
      (fun cell => (deck.porosity? cell).map precision.cast) (cellPorosities precision deck t) ∧
    GathersSafely deck t [] FaceMultipliers.keywords (deck.multipliers? true)
      (FaceMultipliers.positive <$> FaceMultipliers.ofDeck deck t) ∧
    GathersSafely deck t [] FaceMultipliers.keywords (deck.multipliers? false)
      (FaceMultipliers.negative <$> FaceMultipliers.ofDeck deck t) ∧
    (match deck.array? "SATNUM" with
      | some _ => GathersSafely deck t [] ["SATNUM"] deck.namedRegion? (cellRegions deck t count)
      | none => cellRegions deck t count = .ok (Array.replicate t.numActive 0)) ∧
    GathersSafely deck t CellData.keywords CellData.keywords deck.cellData?
      (CellData.ofDeck deck t) ∧
    GathersSafely deck t CellData.keywords CellData.keywords
      (fun cell => f.oilGas.toOption.bind fun m =>
        deck.initialState? precision floor f m config cell)
      (InitialStates.cells <$> initialStates precision floor deck t f config) := by
  obtain ⟨hpositive, hnegative⟩ := gathersSafely_faceMultipliers deck t
  refine ⟨gathersSafely_cellPermeabilities deck t precision,
    gathersSafely_cellPorosities deck t precision, hpositive, hnegative, ?_,
    gathersSafely_cellData deck t, gathersSafely_initialStates deck t precision floor f config⟩
  cases h : deck.array? "SATNUM" with
  | none => simp only [cellRegions, h]
  | some values => exact gathersSafely_cellRegions deck t count (by simp [h])

end BlackOil

import BlackOil.Proofs.Model.Masking

/-!
# Face lookups

A model looks a face up by the key of two indices and checks neither of them. Two indices of
which the larger one is that of a cell have a tensor exactly if they are adjacent cells, and
it is the tensor of their face. Beyond the last cell the keys begin anew with the next
smaller index: the lookup answers for other cells, the larger index being carried over to
the smaller one.
-/
namespace BlackOil
variable {α : Type} [Scalar α]

namespace CartesianGrid

/-- A tensor is that of the face between two active cells, the second on the positive side
of the first, if it is the mean of their tensors with the multipliers of the deck. -/
def FaceTensor (g : CartesianGrid) (deck : Deck α) (precision : Precision)
    (cells : Array (Tensor α)) (a b : Nat) (tensor : Tensor α) : Prop :=
  ∃ (axis : Axis) (ca cb : Nat) (m : FaceMultipliers α),
    g.active[a]? = some ca ∧ g.active[b]? = some cb ∧
      g.location cb = (⟨axis, true⟩ : Direction).move (g.location ca) ∧
      FaceMultipliers.ofDeck deck g.topology = .ok m ∧
      tensor = (visitedTensor m cells ⟨a, b, ⟨axis, true⟩⟩).map precision.cast

variable {g : CartesianGrid} {deck : Deck α} {precision : Precision} {cells : Array (Tensor α)}

theorem FaceTensor.bounds {a b : Nat} {tensor : Tensor α}
    (h : g.FaceTensor deck precision cells a b tensor) : a < b ∧ (b : Int) < g.numActive := by
  obtain ⟨axis, ca, cb, m, ha, hb, hloc, -⟩ := h
  exact ⟨lt_of_move_positive ha hb hloc, lt_numActive hb⟩

/-- Adjacent active cells have a face. -/
theorem AdjacentPair.exists_faceTensor {p : Nat × Nat} (hp : g.AdjacentPair p)
    {m : FaceMultipliers α} (hm : FaceMultipliers.ofDeck deck g.topology = .ok m) :
    ∃ tensor, g.FaceTensor deck precision cells p.1 p.2 tensor := by
  obtain ⟨hlt, ca, cb, ha, hb, hadj⟩ := hp
  obtain ⟨axis, hloc | hloc⟩ := Direction.exists_axis_of_adjacent hadj
  · exact ⟨_, axis, ca, cb, m, ha, hb, hloc, hm, rfl⟩
  · have hgt : p.2 < p.1 := lt_of_move_positive hb ha hloc
    omega

/-- A tensor is found under the keys of adjacent active cells only. -/
theorem find?_faceStore_eq_some_iff {m : FaceMultipliers α} (hg : g.Within)
    (hm : FaceMultipliers.ofDeck deck g.topology = .ok m) {first second : Int}
    {found : Rounded (Tensor α)} :
    (g.faceStore precision m cells).find? first second = some found ↔
      ∃ (a b : Nat) (tensor : Tensor α), g.FaceTensor deck precision cells a b tensor ∧
        faceKey a b g.numActive = faceKey first second g.numActive ∧
        found = ⟨precision, tensor⟩ := by
  have hfind : ∀ {a b : Nat} {tensor : Tensor α}, g.FaceTensor deck precision cells a b tensor →
      faceKey a b g.numActive = faceKey first second g.numActive →
        (g.faceStore precision m cells).find? first second = some ⟨precision, tensor⟩ := by
    intro a b tensor htensor hkey
    obtain ⟨axis, ca, cb, m', ha, hb, hloc, hm', rfl⟩ := htensor
    rw [hm, Except.ok.injEq] at hm'
    rw [← hm', ← find?_faceStore hg ha hb hloc, find?_faceStore_eq, find?_faceStore_eq, hkey]
  constructor
  · intro h
    have hkeys : faceKey first second g.numActive ∈ (g.faceStore precision m cells).keys := by
      rw [FaceStore.find?, faceStore, FaceStore.numActive_foldl_offer] at h
      rw [FaceStore.mem_keys_iff, faceStore, h, Option.isSome_some]
    obtain ⟨p, hp, hkey⟩ := (mem_keys_faceStore hg).mp hkeys
    have hexists : ∃ tensor, g.FaceTensor deck precision cells p.1 p.2 tensor :=
      hp.exists_faceTensor hm
    obtain ⟨tensor, htensor⟩ := hexists
    have hsome := hfind htensor hkey
    rw [h, Option.some.injEq] at hsome
    exact ⟨p.1, p.2, tensor, htensor, hkey, hsome⟩
  · intro h
    obtain ⟨a, b, tensor, htensor, hkey, rfl⟩ := h
    exact hfind htensor hkey

end CartesianGrid

namespace ReservoirModel

/-- What the lookup of a face answers in a model of a grid. -/
structure LooksUpFaces (m : ReservoirModel α) (deck : Deck α) (g : CartesianGrid) : Prop where
  /-- If the larger index is that of a cell, the face is the one between the two cells. -/
  ok_iff_of_lt : ∀ {first second : Int}, 0 ≤ max first second →
    max first second < m.numActive → ∀ tensor, m.facePermeability first second = .ok tensor ↔
      ∃ a b : Nat, g.FaceTensor deck m.precision m.cellPermeabilities a b tensor ∧
        (first = a ∧ second = b ∨ first = b ∧ second = a)
  /-- In general the face is that of the quotient and the remainder of the key. -/
  ok_iff : ∀ first second : Int, ∀ tensor, m.facePermeability first second = .ok tensor ↔
    ∃ a b : Nat, g.FaceTensor deck m.precision m.cellPermeabilities a b tensor ∧
      (a : Int) = min first second + max first second / m.numActive ∧
      (b : Int) = max first second % m.numActive
  fault_eq : ∀ {first second : Int} {fault : Fault},
    m.facePermeability first second = .error fault → fault = .noFace first second

/-- A model has the grid that was chosen for it and the faces of its cells. -/
theorem grid_and_faces_of_build {s : Session α} {deck : Deck α} {grid : Option Topology}
    {config : Config α} {m : ReservoirModel α} (h : (build s deck grid config).1 = .ok m) :
    chooseGrid deck grid = .ok m.grid ∧
      BlackOil.facePermeabilities m.precision deck m.grid m.cellPermeabilities =
        .ok m.facePermeabilities := by
  obtain ⟨hgrid, -, hstages⟩ := isAssembled_of_build h
  exact ⟨hgrid, hstages.facePermeabilities⟩

/-- A model that is built on a cartesian grid of any size answers by the keys of its faces. -/
theorem looksUpFaces_of_build {s : Session α} {deck : Deck α} {grid : Option Topology}
    {config : Config α} {m : ReservoirModel α} (hbuilt : (build s deck grid config).1 = .ok m)
    {sizes : List Int} {mask : Option (List Bool)} {g : CartesianGrid}
    (hg : CartesianGrid.ofMask sizes mask = .ok g) (hgrid : m.grid = g.topology) :
    m.LooksUpFaces deck g := by
  have hwithin := CartesianGrid.ofMask_within hg
  have hfaces := (grid_and_faces_of_build hbuilt).2
  rw [hgrid] at hfaces
  obtain ⟨multipliers, hm, hstore⟩ :=
    CartesianGrid.eq_faceStore_of_facePermeabilities_eq_ok hwithin hfaces
  have hcount : m.numActive = g.numActive := by
    rw [numActive, hgrid, CartesianGrid.numActive_topology]
  have hok : ∀ first second : Int, ∀ tensor, m.facePermeability first second = .ok tensor ↔
      ∃ a b : Nat, g.FaceTensor deck m.precision m.cellPermeabilities a b tensor ∧
        (a : Int) = min first second + max first second / m.numActive ∧
        (b : Int) = max first second % m.numActive := by
    intro first second tensor
    have hcarry : ∀ {a b : Nat} {tensor : Tensor α},
        g.FaceTensor deck m.precision m.cellPermeabilities a b tensor →
          (faceKey a b g.numActive = faceKey first second g.numActive ↔
            (a : Int) = min first second + max first second / g.numActive ∧
              (b : Int) = max first second % g.numActive) := by
      intro a b tensor htensor
      have hbounds := htensor.bounds
      exact faceKey_eq_iff_carry (by omega) hbounds.2 first second
    rw [facePermeability, Outcome.map_eq_ok_iff, hcount]
    simp only [FaceStore.get_eq_ok_iff, hstore,
      CartesianGrid.find?_faceStore_eq_some_iff hwithin hm]
    constructor
    · intro h
      obtain ⟨_, ⟨a, b, tensor, htensor, hkey, rfl⟩, rfl⟩ := h
      exact ⟨a, b, htensor, (hcarry htensor).mp hkey⟩
    · intro h
      obtain ⟨a, b, htensor, hkey⟩ := h
      exact ⟨_, ⟨a, b, tensor, htensor, (hcarry htensor).mpr hkey, rfl⟩, rfl⟩
  refine ⟨?_, hok, ?_⟩
  · intro first second hnonneg hlt tensor
    rw [hok, Int.ediv_eq_zero_of_lt hnonneg hlt, Int.emod_eq_of_lt hnonneg hlt, Int.add_zero]
    refine exists_congr fun a => exists_congr fun b => and_congr_right fun htensor => ?_
    have hab := htensor.bounds.1
    omega
  · intro first second fault h
    rw [facePermeability, FaceStore.get] at h
    cases hf : m.facePermeabilities.find? first second with
    | none =>
      rw [hf] at h
      cases h
      rfl
    | some found =>
      rw [hf] at h
      cases h

/-- Three cells in a row. -/
def chainDeck : Deck Exact where
  arrays := ⟨[("PORO", .real #[0.2, 0.2, 0.2]), ("PERMX", .real #[1.0, 2.0, 4.0]),
    ("SWAT", .real #[0.2, 0.2, 0.2]), ("SGAS", .real #[0.0, 0.0, 0.0]),
    ("PRESSURE", .real #[1e7, 1e7, 1e7]), ("RS", .real #[0.0, 0.0, 0.0])], by decide⟩
  tables := rowDeck.tables
  dimensions := some ⟨3, 1, 1, by decide, Nat.one_pos, Nat.one_pos⟩
  size_eq := by decide

def chainGrid : CartesianGrid where
  dimensions := ⟨3, 1, 1, by decide, Nat.one_pos, Nat.one_pos⟩
  mask := [true, true, true]

/-- The indices 0 and 5, of which the second is no cell, have a tensor in the row. -/
theorem exists_chain_tensor : ∃ m tensor,
    (build {} chainDeck (some chainGrid.topology) rowConfig).1 = .ok m ∧
      m.grid = chainGrid.topology ∧ m.facePermeability 0 5 = .ok tensor := by
  have hfound : ((build {} chainDeck (some chainGrid.topology) rowConfig).1 >>=
      fun m => m.facePermeability 0 5).toOption.isSome := by decide +kernel
  obtain ⟨tensor, h⟩ := Outcome.exists_ok_of_isSome hfound
  obtain ⟨m, hbuilt, htensor⟩ := Outcome.bind_eq_ok_iff.mp h
  have hgrid : chooseGrid chainDeck (some chainGrid.topology) = .ok m.grid :=
    (grid_and_faces_of_build hbuilt).1
  exact ⟨m, tensor, hbuilt, (Except.ok.inj hgrid).symm, htensor⟩

theorem looksUpFaces_of_build_chain : ∃ m tensor,
    (build {} chainDeck (some chainGrid.topology) rowConfig).1 = .ok m ∧
      m.LooksUpFaces chainDeck chainGrid ∧ m.facePermeability 0 5 = .ok tensor ∧
      m.facePermeability 1 2 = .ok tensor := by
  obtain ⟨m, tensor, hbuilt, hgrid, htensor⟩ := exists_chain_tensor
  have hofMask : CartesianGrid.ofMask [3, 1, 1] none = .ok chainGrid := rfl
  have hlooks := looksUpFaces_of_build hbuilt hofMask hgrid
  have hcount : m.numActive = 3 := by
    rw [numActive, hgrid, CartesianGrid.numActive_topology]
    rfl
  refine ⟨m, tensor, hbuilt, hlooks, htensor, ?_⟩
  -- The key 5 of the pair is that of the cells 5 / 3 = 1 and 5 % 3 = 2.
  obtain ⟨a, b, hface, ha, hb⟩ := (hlooks.ok_iff 0 5 tensor).mp htensor
  rw [hcount] at ha hb
  have ha : a = 1 := by omega
  have hb : b = 2 := by omega
  have hlt : max (1 : Int) 2 < m.numActive := by
    rw [hcount]
    decide
  exact (hlooks.ok_iff_of_lt (by decide) hlt tensor).mpr ⟨a, b, hface, by omega⟩

/-- Not only the adjacent cells of a model have a tensor. -/
theorem not_forall_facePermeability_adjacent : ¬∀ (deck : Deck Exact) (sizes : List Int)
    (mask : Option (List Bool)) (g : CartesianGrid) (config : Config Exact)
    (m : ReservoirModel Exact), CartesianGrid.ofMask sizes mask = .ok g →
      (build {} deck (some g.topology) config).1 = .ok m →
      ∀ (first second : Int) (tensor : Tensor Exact),
        m.facePermeability first second = .ok tensor ↔
          ∃ a b : Nat, g.FaceTensor deck m.precision m.cellPermeabilities a b tensor ∧
            (first = a ∧ second = b ∨ first = b ∧ second = a) := by
  intro h
  obtain ⟨m, tensor, hbuilt, -, htensor⟩ := exists_chain_tensor
  have hofMask : CartesianGrid.ofMask [3, 1, 1] none = .ok chainGrid := rfl
  have hface := (h chainDeck [3, 1, 1] none chainGrid rowConfig m hofMask hbuilt 0 5 tensor).mp
    htensor
  obtain ⟨a, b, hface, hpair⟩ := hface
  have hbounds := hface.bounds
  have hcount : chainGrid.numActive = 3 := rfl
  omega

end ReservoirModel
end BlackOil

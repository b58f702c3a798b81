import BlackOil.Batch
import BlackOil.Curve
import BlackOil.Deck.Basic

/-!
# Live oil

Oil with dissolved gas, tabulated by saturated records of increasing dissolved
gas and bubble point. Each record has a branch of relative volume factors above
its bubble point; a record without one borrows that of the nearest record that
has one. Volume factors and viscosities never fall below a floor.
-/
namespace BlackOil
variable {α : Type} [Scalar α]

/-- The column must increase strictly. -/
def checkIncreasing (column : Abscissa) (values : List α) : Except Fault Unit :=
  if (Scalar.steps values).any (· ≤ 0.0) then .error (.notIncreasing column) else .ok ()

/-- A saturated state of live oil. -/
structure OilRecord (α : Type) where
  dissolvedGas : α
  bubblePoint : α
  volumeFactor : α
  viscosity : α
  /-- The volume factor over that at the bubble point, against the pressure above
  the bubble point. -/
  branch : Curve α

/-- A table of at least two records. -/
structure LiveOil (α : Type) where
  first : OilRecord α
  second : OilRecord α
  rest : List (OilRecord α)

/-- The branch of a record without undersaturated rows where no record has any. -/
def flatBranch : Curve α := ⟨⟨0.0, 1.0⟩, []⟩

omit [Scalar α] in
/-- The branch nearest to a position among branches at known positions. Of two
equally near ones the later counts. -/
def nearestBranch (known : List (Nat × Curve α)) (position : Nat) : Option (Curve α) :=
  let distance (k : Nat) := max k position - min k position
  known.foldl
      (fun best (k, branch) => match best with
        | none => some (k, branch)
        | some (k', branch') =>
          if distance k ≤ distance k' then some (k, branch) else some (k', branch'))
      none
    |>.map Prod.snd

/-- Gives every record a branch: its own, or else the nearest, or else the flat one. -/
def fillBranches (branches : List (Option (Curve α))) : List (Curve α) :=
  let known := branches.zipIdx.filterMap fun (branch, k) => branch.map (k, ·)
  branches.zipIdx.map fun (branch, position) =>
    branch.getD ((nearestBranch known position).getD flatBranch)

namespace LiveOil

omit [Scalar α] in
def records (t : LiveOil α) : List (OilRecord α) := t.first :: t.second :: t.rest

/-- A table from columns of one length, with one branch per record. A branch that
is `none` has columns of different lengths. -/
def ofColumns (dissolvedGas bubblePoints volumeFactors viscosities : List α)
    (branches : List (Option (Curve α))) : Except Fault (LiveOil α) := do
  let count := dissolvedGas.length
  if count < 2 then throw .fewOilRecords
  if branches.length ≠ count then throw (.branchCount count branches.length)
  checkIncreasing .dissolvedGas dissolvedGas
  checkIncreasing .bubblePoints bubblePoints
  let columns := (dissolvedGas.zip bubblePoints).zip (volumeFactors.zip viscosities)
  let curves ← match branches.mapM id with
    | some curves => pure curves
    | none => throw .unequalColumns
  if [bubblePoints, volumeFactors, viscosities].any (·.length ≠ count) then throw .unequalColumns
  match (columns.zip curves).map fun (((rs, pb), (bo, mu)), c) => OilRecord.mk rs pb bo mu c with
  | first :: second :: rest => return ⟨first, second, rest⟩
  | _ => throw .fewOilRecords

/-- A row of a record: pressure, volume factor and viscosity. -/
abbrev Row (α : Type) := α × α × α

omit [Scalar α] in
/-- Cuts values into rows of three; a shorter rest is dropped. -/
def rowsOfThree : List α → List (Row α)
  | a :: b :: c :: rest => (a, b, c) :: rowsOfThree rest
  | _ => []

/-- The branch of a record with more than one row, relative to its first row. -/
def branchOf (first : Row α) (rest : List (Row α)) : Option (Curve α) :=
  let (p, bo, _) := first
  let knot (row : Row α) : Knot α := ⟨row.1 - p, row.2.1 / bo⟩
  if rest.isEmpty then none else some ⟨knot first, rest.map knot⟩

/-- A record of a table, whose number counts from one: `Rs` and then rows, the
first the saturated one. -/
def readRecord (number : Nat) (record : Record α) :
    Except Fault (α × Row α × Option (Curve α)) :=
  if record.length < 4 ∨ (record.length - 1) % 3 ≠ 0 then
    .error (.oilRecordSize number record.length)
  else if record.any Scalar.isUndefined then .error (.defaultedOilRecord number)
  else match record with
    | [] => .error (.oilRecordSize number 0)
    | rs :: values =>
      match rowsOfThree values with
      | [] => .error (.oilRecordSize number record.length)
      | first :: rest => do
        checkIncreasing (.branch number) ((first :: rest).map Prod.fst)
        return (rs, first, branchOf first rest)

def ofTable (table : Table α) : Except Fault (LiveOil α) := do
  let records ← table.zipIdx.mapM fun (record, k) => readRecord (k + 1) record
  let rows := records.map (·.2.1)
  ofColumns (records.map (·.1)) (rows.map (·.1)) (rows.map (·.2.1)) (rows.map (·.2.2))
    ((fillBranches (records.map (·.2.2))).map some)

variable (t : LiveOil α)

omit [Scalar α] in
/-- One quantity of the records against another. -/
def curve (x y : OilRecord α → α) : Curve α :=
  let knot (r : OilRecord α) : Knot α := ⟨x r, y r⟩
  ⟨knot t.first, knot t.second :: t.rest.map knot⟩

/-- The dissolved gas of oil saturated at a pressure, never negative. -/
def saturatedGas (pressure : α) : α :=
  Scalar.maximum ((t.curve OilRecord.bubblePoint OilRecord.dissolvedGas).extended pressure) 0.0

/-- The volume factor of oil saturated at a pressure. -/
def saturatedVolumeFactor (floor pressure : α) : α :=
  Scalar.maximum ((t.curve OilRecord.bubblePoint OilRecord.volumeFactor).extended pressure) floor

/-- The pressure at which oil with this much dissolved gas is saturated. -/
def bubblePoint (dissolvedGas : α) : α :=
  (t.curve OilRecord.dissolvedGas OilRecord.bubblePoint).extended dissolvedGas

/-- The viscosity of oil saturated at a pressure. -/
def viscosity (floor pressure : α) : α :=
  Scalar.maximum ((t.curve OilRecord.bubblePoint OilRecord.viscosity).extended pressure) floor

/-- The relative volume factor at a pressure above the bubble point, linear in
the dissolved gas between the branches of the two records around it. -/
def branchFactor (dissolvedGas offset : α) : α :=
  let (lower, upper) := bracket OilRecord.dissolvedGas dissolvedGas t.first t.second t.rest
  let span := upper.dissolvedGas - lower.dissolvedGas
  let weight := Scalar.clip ((dissolvedGas - lower.dissolvedGas) / span) 0.0 1.0
  (1.0 - weight) * lower.branch.extended offset + weight * upper.branch.extended offset

/-- The volume factor of oil above its bubble point. -/
def undersaturatedVolumeFactor (floor pressure dissolvedGas : α) : α :=
  let offset := Scalar.maximum (pressure - t.bubblePoint dissolvedGas) 0.0
  let atBubblePoint := (t.curve OilRecord.dissolvedGas OilRecord.volumeFactor).extended dissolvedGas
  Scalar.maximum (atBubblePoint * t.branchFactor dissolvedGas offset) floor

/-- The volume factor of oil with the given dissolved gas. It is undersaturated
where it could dissolve more. -/
def volumeFactor (floor pressure dissolvedGas : α) : α :=
  if dissolvedGas < t.saturatedGas pressure then
    t.undersaturatedVolumeFactor floor pressure dissolvedGas
  else t.saturatedVolumeFactor floor pressure

/-- The dissolved gas of oil saturated at several pressures. -/
def saturatedGases (pressures : List α) : List α :=
  ((t.curve OilRecord.bubblePoint OilRecord.dissolvedGas).extendedAll pressures).map
    (Scalar.maximum · 0.0)

/-- The volume factors of oil saturated at several pressures. -/
def saturatedVolumeFactors (floor : α) (pressures : List α) : List α :=
  ((t.curve OilRecord.bubblePoint OilRecord.volumeFactor).extendedAll pressures).map
    (Scalar.maximum · floor)

/-- The pressures at which oil with several amounts of dissolved gas is saturated. -/
def bubblePoints (dissolvedGas : List α) : List α :=
  (t.curve OilRecord.dissolvedGas OilRecord.bubblePoint).extendedAll dissolvedGas

/-- The viscosities of oil saturated at several pressures. -/
def viscosities (floor : α) (pressures : List α) : List α :=
  ((t.curve OilRecord.bubblePoint OilRecord.viscosity).extendedAll pressures).map
    (Scalar.maximum · floor)

/-- The relative volume factors of several cells at once. Every branch is evaluated in every
cell, and a cell picks its two records. -/
def branchFactors (dissolvedGas offsets : List α) : Except Fault (List α) := do
  let column := (t.records.map OilRecord.dissolvedGas).toArray
  let relative := (t.records.map fun r => (r.branch.extendedAll offsets).toArray).toArray
  (dissolvedGas.zip (places column dissolvedGas)).zipIdx.mapM fun ((gas, place), cell) => do
    let upper : Int := min (max place 1) (column.size - 1)
    let lower := upper - 1
    let span := (← entryAt column upper) - (← entryAt column lower)
    let weight := Scalar.clip ((gas - (← entryAt column lower)) / span) 0.0 1.0
    let atLower ← entryAt (← entryAt relative lower) cell
    let atUpper ← entryAt (← entryAt relative upper) cell
    return (1.0 - weight) * atLower + weight * atUpper

/-- Which cells could dissolve more gas. -/
def undersaturated (pressures dissolvedGas : List α) : List Bool :=
  List.zipWith (fun gas limit => decide (gas < limit)) dissolvedGas (t.saturatedGases pressures)

/-- The volume factors of undersaturated cells before the floor bounds them. -/
def undersaturatedProducts (pressures dissolvedGas : List α) : Except Fault (List α) := do
  let offsets := List.zipWith (fun p pb => Scalar.maximum (p - pb) 0.0) pressures
    (t.bubblePoints dissolvedGas)
  let atBubblePoint :=
    (t.curve OilRecord.dissolvedGas OilRecord.volumeFactor).extendedAll dissolvedGas
  let factors ← t.branchFactors dissolvedGas offsets
  return List.zipWith (· * ·) atBubblePoint factors

/-- The volume factors of several cells at once. All are taken as saturated first, and those of
the undersaturated cells are then put in their places. -/
def volumeFactors (floor : α) (pressures dissolvedGas : List α) : Except Fault (List α) := do
  let saturated := t.saturatedVolumeFactors floor pressures
  let mask := t.undersaturated pressures dissolvedGas
  if mask.any id then
    let products ← t.undersaturatedProducts (Batch.compress mask pressures)
      (Batch.compress mask dissolvedGas)
    return Batch.scatter mask saturated (products.map (Scalar.maximum · floor))
  else return saturated

/-- The volume factors of batches; without dissolved gas the oil is saturated. -/
def volumeFactorBatch (floor : α) (pressure : Batch α) (dissolvedGas : Option (Batch α)) :
    Except Fault (Batch α) :=
  match dissolvedGas with
  | none => .ok (pressure.mapAll (t.saturatedVolumeFactors floor))
  | some gas => do
    let pairs ← Batch.combine Prod.mk pressure gas
    let values ← t.volumeFactors floor (pairs.values.map Prod.fst) (pairs.values.map Prod.snd)
    return ⟨pairs.shape, values⟩

end LiveOil
end BlackOil

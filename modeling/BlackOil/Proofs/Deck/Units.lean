import BlackOil.Deck.Keyword

/-!
# Units of table items

The METRIC unit of an item follows from its column. A record in SI units has the items of the
record of the text, each times the SI value of its unit.
-/
namespace BlackOil.TableKeyword

/-- The unit of an item in rows of a pressure, a volume factor and a viscosity. -/
def pressureRowUnit (position : Nat) : Option Quantity :=
  match position % 3 with
  | 0 => some .bar
  | 1 => none
  | _ => some .centipoise

/-- The unit of an item in rows of a pressure, a volume factor, a compressibility, a viscosity
and its change with pressure. -/
def waterRowUnit (position : Nat) : Option Quantity :=
  match position % 5 with
  | 0 => some .bar
  | 1 => none
  | 3 => some .centipoise
  | _ => some .perBar

/-- The METRIC unit of an item of a record, if it is no SI unit. Saturation tables have rows of
four that end with a capillary pressure. The rows of live oil come after its dissolved gas. -/
def metricUnit (keyword : TableKeyword) (position : Nat) : Option Quantity :=
  match keyword with
  | oilWater | gasOil => if position % 4 = 3 then some .bar else none
  | dryGas => pressureRowUnit position
  | liveOil => if position = 0 then none else pressureRowUnit (position - 1)
  | water => waterRowUnit position
  | density => none

variable {α : Type} [Scalar α]

/-- The SI value of the unit of an item. -/
def unitValue (constants : Constants α) (keyword : TableKeyword) (position : Nat) : α :=
  (keyword.metricUnit position).elim 1.0 constants.get

omit [Scalar α] in
theorem getD_saturationRow {a b : α} (position : Nat) :
    [a, a, a, b].getD (position % 4) a = if position % 4 = 3 then b else a := by
  have hlt : position % 4 < 4 := Nat.mod_lt _ (by decide)
  match position % 4, hlt with
  | 0, _ | 1, _ | 2, _ | 3, _ => rfl

theorem getD_pressureRow (constants : Constants α) (position : Nat) :
    [constants.get .bar, 1.0, constants.get .centipoise].getD (position % 3) 1.0 =
      (pressureRowUnit position).elim 1.0 constants.get := by
  have hlt : position % 3 < 3 := Nat.mod_lt _ (by decide)
  unfold pressureRowUnit
  match position % 3, hlt with
  | 0, _ | 1, _ | 2, _ => rfl

theorem getD_waterRow (constants : Constants α) (position : Nat) :
    [constants.get .bar, 1.0, constants.get .perBar, constants.get .centipoise,
      constants.get .perBar].getD (position % 5) 1.0 =
      (waterRowUnit position).elim 1.0 constants.get := by
  have hlt : position % 5 < 5 := Nat.mod_lt _ (by decide)
  unfold waterRowUnit
  match position % 5, hlt with
  | 0, _ | 1, _ | 2, _ | 3, _ | 4, _ => rfl

/-- The factor of an item is the SI value of its unit. -/
theorem factor_eq_unitValue (constants : Constants α) (keyword : TableKeyword) (position : Nat) :
    keyword.factor constants position = keyword.unitValue constants position := by
  cases keyword with
  | oilWater | gasOil =>
    refine (getD_saturationRow position).trans ?_
    simp only [unitValue, metricUnit]
    split <;> rfl
  | dryGas => exact getD_pressureRow constants position
  | water => exact getD_waterRow constants position
  | density =>
    change [(1.0 : α)].getD (position % 1) 1.0 = 1.0
    rw [Nat.mod_one]
    rfl
  | liveOil =>
    cases position with
    | zero => rfl
    | succ position => exact getD_pressureRow constants position

theorem length_toSI (constants : Constants α) (keyword : TableKeyword) (record : Record α) :
    (keyword.toSI constants record).length = record.length := List.length_mapIdx

theorem isEmpty_toSI (constants : Constants α) (keyword : TableKeyword) (record : Record α) :
    (keyword.toSI constants record).isEmpty = record.isEmpty := by
  cases record with
  | nil => rfl
  | cons value record => rw [toSI, List.mapIdx_cons]; rfl

/-- Each item is multiplied by the SI value of its unit. -/
theorem getElem?_toSI (constants : Constants α) (keyword : TableKeyword) {record : Record α}
    {position : Nat} {value : α} (h : record[position]? = some value) :
    (keyword.toSI constants record)[position]? =
      some (value * keyword.unitValue constants position) := by
  rw [toSI, List.getElem?_mapIdx, h, Option.map_some, factor_eq_unitValue]

end BlackOil.TableKeyword

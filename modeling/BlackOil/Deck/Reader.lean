import BlackOil.Deck.Keyword
import BlackOil.Deck.Token

/-!
# Reading a deck

The reader takes one token at a time. Between two tokens it stands outside every
record, inside the single record of `DIMENS` or of a cell keyword, or at a table
keyword, between records or inside one. Each finished keyword leaves a block.

A token that starts its line opens a keyword when the reader stands outside, and
also between the records of a table keyword unless it is a number or a slash.
All other tokens outside records are skipped, and with them whole keywords that
the library does not use.
-/
namespace BlackOil

/-- What one occurrence of a keyword gives. -/
inductive Block (α : Type) where
  | dimensions (sizes : List Int)
  | cells (name : String) (values : Array α)
  | tables (keyword : TableKeyword) (tables : List (Table α))

/-- The keywords with a single record. -/
inductive RecordKeyword where
  | dimensions
  | cells (name : String)
  deriving DecidableEq, Repr

def RecordKeyword.name : RecordKeyword → String
  | dimensions => "DIMENS"
  | cells name => name

/-- The tables read so far at a table keyword. -/
structure OpenTables (α : Type) where
  keyword : TableKeyword
  tables : List (Table α) := []
  /-- The records of the table that is not finished yet. -/
  run : Table α := []

/-- Where the reader stands between two tokens. -/
inductive Place (α : Type) where
  | outside
  | record (keyword : RecordKeyword) (values : Array α)
  | betweenRecords (t : OpenTables α)
  | tableRecord (t : OpenTables α) (values : Array α)

structure Reader (α : Type) where
  blocks : Array (Block α) := #[]
  place : Place α := .outside

variable {α : Type} [Scalar α]

/-- A size along an axis, truncated to an integer. -/
def dimension (value : α) : Except Fault Int :=
  match Scalar.integerPart value with
  | .integer n => .ok n
  | .infinite => .error .infiniteDimension
  | .undefined => .error .undefinedDimension

/-- The block of a keyword whose single record holds `values`. -/
def RecordKeyword.block (constants : Constants α) (values : Array α) :
    RecordKeyword → Except Fault (Block α)
  | dimensions =>
    if values.size = 3 then Block.dimensions <$> values.toList.mapM dimension
    else .error (.dimensionCount values.size)
  | cells name =>
    if values.any Scalar.isUndefined then .error (.defaultedCells name)
    else .ok (.cells name (values.map (· * cellFactor constants name)))

namespace OpenTables

omit [Scalar α] in
/-- Ends the table that is not finished yet. -/
def endRun (t : OpenTables α) : OpenTables α :=
  if t.run.isEmpty then t else { t with tables := t.tables ++ [t.run], run := [] }

/-- Takes up a finished record. An empty record ends a live-oil table and is
passed over elsewhere, where each record is a table of its own. -/
def add (constants : Constants α) (t : OpenTables α) (values : Array α) : OpenTables α :=
  let record := t.keyword.toSI constants values.toList
  if record.isEmpty then t.endRun
  else
    let t := { t with run := t.run ++ [record] }
    if t.keyword = .liveOil then t else t.endRun

omit [Scalar α] in
def block (t : OpenTables α) : Block α := .tables t.keyword t.endRun.tables

end OpenTables

/-- The values that a record item stands for. -/
def recordItem (keyword : String) (token : Token) : Except Fault (Array α) :=
  match token.number? with
  | some (count, value) => .ok (Array.replicate count (Scalar.ofNumeral value))
  | none => .error (.unexpectedToken (String.ofList token.text) keyword)

namespace Reader

/-- A token outside every record. -/
def openKeyword (blocks : Array (Block α)) (token : Token) : Except Fault (Reader α) :=
  if token.inColumnOne then
    match Keyword.ofText token.text with
    | .dimensions => .ok ⟨blocks, .record .dimensions #[]⟩
    | .cells name => .ok ⟨blocks, .record (.cells name) #[]⟩
    | .tables keyword => .ok ⟨blocks, .betweenRecords { keyword }⟩
    | .unitSystem name => .error (.unitSystem name)
    | .other => .ok ⟨blocks, .outside⟩
  else .ok ⟨blocks, .outside⟩

/-- A token inside a record of a table keyword. -/
def stepTable (constants : Constants α) (blocks : Array (Block α)) (t : OpenTables α)
    (values : Array α) (token : Token) : Except Fault (Reader α) :=
  if token.isSlash then .ok ⟨blocks, .betweenRecords (t.add constants values)⟩
  else do
    let items ← recordItem t.keyword.name token
    return ⟨blocks, .tableRecord t (values ++ items)⟩

/-- Takes one token. -/
def step (constants : Constants α) (r : Reader α) (token : Token) : Except Fault (Reader α) :=
  match r.place with
  | .outside => openKeyword r.blocks token
  | .record keyword values =>
    if token.isSlash then do
      let block ← keyword.block constants values
      return ⟨r.blocks.push block, .outside⟩
    else do
      let items ← recordItem keyword.name token
      return ⟨r.blocks, .record keyword (values ++ items)⟩
  | .betweenRecords t =>
    if token.inRecord then stepTable constants r.blocks t #[] token
    else openKeyword (r.blocks.push t.block) token
  | .tableRecord t values => stepTable constants r.blocks t values token

omit [Scalar α] in
/-- The blocks at the end of a text. A record may not be left open. -/
def finish (r : Reader α) : Except Fault (Array (Block α)) :=
  match r.place with
  | .outside => .ok r.blocks
  | .record keyword _ => .error (.unterminatedRecord keyword.name)
  | .betweenRecords t => .ok (r.blocks.push t.block)
  | .tableRecord t _ => .error (.unterminatedRecord t.keyword.name)

end Reader

/-- The blocks of a sequence of tokens. -/
def Block.ofTokens (constants : Constants α) (tokens : List Token) :
    Except Fault (Array (Block α)) := do
  let reader ← tokens.foldlM (Reader.step constants) {}
  reader.finish

namespace Block

omit [Scalar α]

/-- The cell arrays of the blocks, in order. -/
def arrays (blocks : List (Block α)) : List (String × Array α) :=
  blocks.filterMap fun
    | cells name values => some (name, values)
    | _ => none

/-- The tables of the blocks; a keyword that comes again adds to its tables. -/
def tableCatalog (blocks : List (Block α)) : Catalog (List (Table α)) :=
  blocks.foldl
    (fun c block => match block with
      | tables keyword new => c.put keyword.name ((c.find? keyword.name).getD [] ++ new)
      | _ => c)
    {}

/-- The last dimensions of the blocks. -/
def lastDimensions (blocks : List (Block α)) : Option (List Int) :=
  blocks.foldl
    (fun last block => match block with
      | dimensions sizes => some sizes
      | _ => last)
    none

end Block

namespace Deck

/-- The deck of a sequence of blocks. A cell keyword that comes again replaces
its values. -/
def ofBlocks (blocks : List (Block α)) : Except Fault (Deck α) :=
  ofLists (Block.arrays blocks) (Block.tableCatalog blocks).entries (Block.lastDimensions blocks)

/-- Reads a deck text in METRIC units. -/
def parse (constants : Constants α) (text : String) : Except Fault (Deck α) := do
  let blocks ← Block.ofTokens constants (Token.ofText text.toList)
  ofBlocks blocks.toList

end Deck
end BlackOil

import OnePassSql.Value.Basic

/-!
Records outside the tables. A row can be linked to a record; its cells are then read from the record
and written to it. One record may stand behind several rows, in several tables.
-/

namespace OnePassSql

/-- A kind of record that rows can be linked to, read and written by column number. -/
class Record (ρ : Type) where
  /-- The value in a column, null where the record has none. -/
  get : ρ → Nat → Value
  /-- Writes a column; the record may ignore it. -/
  set : ρ → Nat → Value → ρ
  /-- A table that the record is linked into has got a column. Records of fixed shape ignore it. -/
  addColumn : ρ → Nat → Value → ρ := fun record _ _ => record

/-- The cells with one of them set; missing ones before it become null. -/
def setCell (cells : List Value) (column : Nat) (v : Value) : List Value :=
  if column < cells.length then cells.set column v
  else cells ++ List.replicate (column - cells.length) .null ++ [v]

/-- A record that is a list of cells. It keeps its length, or grows where it is written. -/
structure CellRecord where
  cells : List Value
  growing : Bool
deriving DecidableEq

namespace CellRecord

/-- Writes a cell. A record that does not grow ignores columns it does not have. -/
def set (r : CellRecord) (column : Nat) (v : Value) : CellRecord :=
  if column < r.cells.length ∨ r.growing then { r with cells := setCell r.cells column v } else r

instance : Record CellRecord where
  get r column := r.cells[column]?.getD .null
  set := set
  addColumn r column v := if r.growing then r.set column v else r

end CellRecord

/-- The records that rows can be linked to, by number. -/
structure Records (ρ : Type) where
  list : List ρ

/-- The number of a record. -/
abbrev RecordId := Nat

namespace Records

variable {ρ : Type} [Record ρ]

/-- The value that a record has in a column. -/
def cell (rs : Records ρ) (id : RecordId) (column : Nat) : Value :=
  match rs.list[id]? with
  | some r => Record.get r column
  | none => .null

/-- Writes a column of a record. -/
def write (rs : Records ρ) (id : RecordId) (column : Nat) (v : Value) : Records ρ :=
  ⟨rs.list.modify id fun r => Record.set r column v⟩

/-- Tells a record that a table it is linked into has got a column. -/
def addColumn (rs : Records ρ) (id : RecordId) (column : Nat) (v : Value) : Records ρ :=
  ⟨rs.list.modify id fun r => Record.addColumn r column v⟩

end Records

end OnePassSql

import OnePassSql.Column
import OnePassSql.Row

/-!
Tables: typed columns over rows. Every written value is brought to the type of its column, and
writing past the last row fills the gap with rows, so there are no holes.
-/

namespace OnePassSql

/-- Columns and rows. -/
structure Table where
  columns : List Column
  rows : List Row
deriving DecidableEq

namespace Table

variable {ρ : Type} [Record ρ]

/-- No columns, no rows. -/
def empty : Table := ⟨[], []⟩

/-- One row and no columns: what a SELECT without FROM selects from. -/
def unit : Table := ⟨[], [.owned []]⟩

/-- The first column of the name. -/
def columnIndex? (t : Table) (name : String) : Option Nat :=
  t.columns.findIdx? fun c => c.name == name

/-- The value of a cell, null outside of the table. -/
def cell (records : Records ρ) (t : Table) (row column : Nat) : Value :=
  match t.rows[row]? with
  | some r => r.cell records column
  | none => .null

/-- A cell as a reader of values sees it: a scalar of one type, or whether it is null. -/
def cellAs {α : Type} (reader : Value → α) (records : Records ρ) (t : Table)
    (row column : Nat) : α :=
  reader (t.cell records row column)

/-- The rows after a column was added: owned rows get its default, records are told. -/
def extendRows (column : Nat) (default : Value) : List Row → Records ρ → List Row × Records ρ
  | [], records => ([], records)
  | .owned cells :: rest, records =>
    let (rows, records) := extendRows column default rest records
    (.owned (cells ++ [default]) :: rows, records)
  | .linked id :: rest, records =>
    let (rows, records) := extendRows column default rest (records.addColumn id column default)
    (.linked id :: rows, records)

/-- Adds a column behind the others. -/
def addColumn (records : Records ρ) (t : Table) (c : Column) : Table × Records ρ :=
  let (rows, records) := extendRows t.columns.length c.default t.rows records
  (⟨t.columns ++ [c], rows⟩, records)

/-- The cells of a row that is created without values. -/
def freshCells (t : Table) : List Value := t.columns.map Column.fill

/-- Creates one row. -/
def appendFresh (t : Table) : Table :=
  ⟨t.columns.map Column.advance, t.rows ++ [.owned t.freshCells]⟩

/-- Creates rows. -/
def growBy : Nat → Table → Table
  | 0, t => t
  | n + 1, t => growBy n t.appendFresh

/-- Links a row to a record. Its values are taken as they are. -/
def linkRow (t : Table) (record : RecordId) : Table :=
  { t with rows := t.rows ++ [.linked record] }

/-- The records behind the linked rows, in row order. -/
def linkedRecords (t : Table) : List RecordId :=
  t.rows.filterMap fun
    | .linked id => some id
    | .owned _ => none

/-- The cells of one row, each value brought to the type of its column. -/
def coerceCells : List Column → List Value → Except Fault (List Value)
  | c :: columns, v :: values => do
    let v ← v.coerce c.type
    let rest ← coerceCells columns values
    return v :: rest
  | _, _ => .ok []

/-- A table of given rows. Without columns there is nothing to hold a row. -/
def ofRows (columns : List Column) (rows : List (List Value)) : Except Fault Table := do
  let rows := if columns.isEmpty then [] else rows
  let cells ← rows.mapM (coerceCells columns)
  return ⟨columns, cells.map Row.owned⟩

/-- The table of one integer that a statement reports. -/
def report (name : String) (n : Int64) : Table :=
  ⟨[.plain name .integer], [.owned [.integer n]]⟩

end Table

end OnePassSql

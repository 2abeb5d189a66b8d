import OnePassSql.Table.Basic

/-!
Tables changed in place. An edit is a sequence of writes to one table; what was written before a
fault stays written.
-/

namespace OnePassSql

/-- A table being changed, with the records behind its linked rows. -/
structure Sheet (ρ : Type) where
  table : Table
  records : Records ρ

namespace Sheet

variable {ρ : Type} [Record ρ]

/-- The sheet with rows created until there are `count`. -/
def growTo (count : Nat) (s : Sheet ρ) : Sheet ρ :=
  { s with table := s.table.growBy (count - s.table.rows.length) }

/-- The sheet with a cell written. A linked row has its record written. -/
def writeCell (row column : Nat) (v : Value) (s : Sheet ρ) : Sheet ρ :=
  match s.table.rows[row]? with
  | some (.owned cells) =>
    { s with table.rows := s.table.rows.set row (.owned (setCell cells column v)) }
  | some (.linked id) => { s with records := s.records.write id column v }
  | none => s

end Sheet

/-- A change to a table. What was written before a fault stays written. -/
abbrev Edit (ρ : Type) := EStateM Fault (Sheet ρ)

namespace Edit

variable {ρ : Type} [Record ρ]

/-- The type that a column declares. -/
def columnType (column : Nat) : Edit ρ ColumnType := do
  match (← get).table.columns[column]? with
  | some c => return c.type
  | none => throw (.argument (.columnIndex column))

/-- Writes a cell: the value is brought to the type of the column, then rows are created up to the
cell, then it is written. -/
def set (row column : Nat) (v : Value) : Edit ρ Unit := do
  let type ← columnType column
  let v ← settle (v.coerce type)
  modify (Sheet.growTo (row + 1))
  modify (Sheet.writeCell row column v)

/-- Writes cells of one row, by column number, in the order of the list. -/
def setCells (row : Nat) : List (Nat × Value) → Edit ρ Unit
  | [] => return
  | cell :: rest => do
    set row cell.1 cell.2
    setCells row rest

/-- Writes cells behind the last row. The first of them creates the row. -/
def appendRow (cells : List (Nat × Value)) : Edit ρ Unit := do
  setCells (← get).table.rows.length cells

end Edit

end OnePassSql

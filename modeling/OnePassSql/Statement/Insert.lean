import OnePassSql.Statement.Session
import OnePassSql.Table.Selection

/-!
INSERT, UPDATE and DELETE. INSERT evaluates each value as soon as it has been read, and writes one
row, cell by cell, when all are there. The other two are read in full and touch no row.
-/

namespace OnePassSql.Statement

open Parse

variable {ρ : Type}

/-- The cell that a value makes: its place in the table, and the value brought to the column's type.
-/
def insertedCell (t : Table) (table column : String) (v : Value) : Except Fault (Nat × Value) :=
  match t.columnIndex? column with
  | none => .error (.semantic (.columnNotInTable column table))
  | some i => do
    let type ← t.columnType column
    let v ← v.coerce type
    return (i, v)

/-- Reads values for the named columns. A value too many is refused before it is read; the names
that got none are given back. -/
def insertedCells (b : Bindings) (t : Table) (table : String) :
    List String → Parse (List (Nat × Value) × List String)
  | [] => throw (.semantic .tooManyValues)
  | column :: columns => do
    let e ← boundExpression b
    let v ← settle (e.eval t.scope)
    let cell ← settle (insertedCell t table column v)
    if ← accept "," then
      let (cells, left) ← insertedCells b t table columns
      return (cell :: cells, left)
    else return ([cell], columns)

/-- INSERT up to its values: the table's name and the names of the columns. -/
def insertTarget : Parse (String × List String) := do
  orAction
  expect "INTO"
  let name ← expectName
  expect "("
  let columns ← commaSeparated expectName
  expect ")"
  expect "VALUES"
  expect "("
  return (name, columns)

/-- Reads an INSERT and checks its values against the columns. Nothing is written yet. -/
def insertedRow : Statement ρ (String × List (Nat × Value)) := do
  let (name, columns) ← insertTarget
  let t ← table name
  let (cells, left) ← insertedCells (← bindings) t name columns
  expect ")"
  if !left.isEmpty then throw (.semantic .tooFewValues)
  return (name, cells)

/-- INSERT -/
def insert [Record ρ] : Statement ρ Table := do
  let (name, cells) ← insertedRow
  edit name (Edit.appendRow cells)
  return .report "inserted_rows" 1

/-- An assignment of UPDATE. -/
def assignment (b : Bindings) : Parse (String × Expr) := do
  let column ← expectName
  expect "="
  let e ← boundExpression b
  return (column, e)

/-- UPDATE -/
def update : Statement ρ Table := do
  orAction
  let name ← expectName
  expect "SET"
  let _ ← commaSeparated (assignment (← bindings))
  let _ ← optionalExpression "WHERE" (← bindings)
  let _ ← table name
  return .report "updated_rows" 0

/-- DELETE -/
def delete : Statement ρ Table := do
  expect "FROM"
  let name ← expectName
  let _ ← optionalExpression "WHERE" (← bindings)
  let _ ← table name
  return .report "deleted_rows" 0

end OnePassSql.Statement

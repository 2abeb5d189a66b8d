import OnePassSql.Table.Edit

/-!
The union of two tables: the columns of both, then the rows of both. Equal rows are all kept. A row
of the second table is written cell by cell into the first column of each name.
-/

namespace OnePassSql.Edit

variable {ρ : Type} [Record ρ]

/-- Adds columns with their counters at the start. -/
def addColumns : List Column → Edit ρ Unit
  | [] => return
  | c :: rest => do
    modify fun s =>
      let (table, records) := s.table.addColumn s.records c.fresh
      ⟨table, records⟩
    addColumns rest

/-- Copies the cells of a row, from column number `index` on, into the row `target`. -/
def copyCells (source : Table) (row target : Nat) (index : Nat) : List Column → Edit ρ Unit
  | [] => return
  | c :: rest => do
    let s ← get
    match s.table.columnIndex? c.name with
    | some column => set target column (source.cell s.records row index)
    | none => pure ()
    copyCells source row target (index + 1) rest

/-- Copies rows behind the rows that are there. -/
def copyRows (source : Table) : List Nat → Edit ρ Unit
  | [] => return
  | row :: rest => do
    copyCells source row (← get).table.rows.length 0 source.columns
    copyRows source rest

/-- Appends the columns and then the rows of another table. -/
def union (other : Table) : Edit ρ Unit := do
  addColumns other.columns
  copyRows other (List.range other.rows.length)

end OnePassSql.Edit

import OnePassSql.Table.Basic

/-! Tables drawn as a grid. -/

namespace OnePassSql.Table

variable {ρ : Type} [Record ρ]

/-- The text of a cell in the grid. -/
def cellText (records : Records ρ) (t : Table) (row column : Nat) : String :=
  (t.cell records row column).written

/-- The width between two bars: the longest text of the column and a blank on either side. -/
def gridWidth (records : Records ρ) (t : Table) (column : Nat) (name : String) : Nat :=
  ((List.range t.rows.length).map fun row => (t.cellText records row column).length).foldl max
    name.length + 2

/-- The widths of all columns. -/
def gridWidths (records : Records ρ) (t : Table) : List Nat :=
  t.columns.zipIdx.map fun (c, column) => t.gridWidth records column c.name

/-- The rule above, below and under the heading. -/
def gridRule (widths : List Nat) : String :=
  String.join (widths.map fun w => "+" ++ String.ofList (List.replicate w '-')) ++ "+\n"

/-- A line of texts between bars. -/
def gridLine (widths : List Nat) (texts : List String) : String :=
  String.join ((texts.zip widths).map fun (text, w) =>
    "| " ++ text ++ String.ofList (List.replicate (w - (text.length + 1)) ' ')) ++ "|\n"

/-- The line of a row. -/
def gridRow (records : Records ρ) (t : Table) (widths : List Nat) (row : Nat) : String :=
  gridLine widths ((List.range t.columns.length).map fun column => t.cellText records row column)

/-- The table with its names as a heading. -/
def grid (records : Records ρ) (t : Table) : String :=
  let widths := t.gridWidths records
  let rule := gridRule widths
  rule ++ gridLine widths (t.columns.map Column.name) ++ rule
    ++ String.join ((List.range t.rows.length).map (t.gridRow records widths)) ++ rule

end OnePassSql.Table

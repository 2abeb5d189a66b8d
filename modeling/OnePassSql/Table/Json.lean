import OnePassSql.Table.Basic
import OnePassSql.Value.Json

/-! Tables as JSON: an array of objects, one for each row. -/

namespace OnePassSql.Table

variable {ρ : Type} [Record ρ]

/-- A row as an object with a member for each column name. -/
def rowJson (records : Records ρ) (t : Table) (row : Nat) : Json :=
  .ofMembers (t.columns.zipIdx.map fun (c, column) =>
    (c.name, (t.cell records row column).toJson))

/-- All rows. -/
def toJson (records : Records ρ) (t : Table) : Json :=
  .array ((List.range t.rows.length).map (t.rowJson records))

end OnePassSql.Table

/-! Declared column types. -/

namespace OnePassSql

/-- The type that a column declares and that its values are brought to on every write. -/
inductive ColumnType where
  | integer
  | text
  | real
  /-- No affinity: a blob column or one declared without a type. -/
  | none
  | numeric
deriving DecidableEq, Repr

namespace ColumnType

/-- The type's name in messages and listings. -/
def name : ColumnType → String
  | integer => "INTEGER"
  | text => "TEXT"
  | real => "REAL"
  | none => "NONE"
  | numeric => "NUMERIC"

end ColumnType

end OnePassSql

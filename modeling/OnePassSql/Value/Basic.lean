import OnePassSql.ColumnType

/-! Values. A value carries its own kind, whatever the column that holds it declares. -/

namespace OnePassSql

/-- A dynamically typed SQL value. -/
inductive Value where
  | null
  | integer (n : Int64)
  | real (x : Float)
  | text (s : String)
  | blob (bytes : List UInt8)
deriving DecidableEq

namespace Value

instance : Inhabited Value := ⟨null⟩

/-- The value is the null. -/
def isNull : Value → Bool
  | null => true
  | _ => false

/-- The value is an integer or a real. -/
def isNumeric : Value → Bool
  | integer _ | real _ => true
  | _ => false

/-- The type of the value's own kind. Null and blobs have none. -/
def type : Value → ColumnType
  | integer _ => .integer
  | real _ => .real
  | text _ => .text
  | null | blob _ => .none

/-- A truth value as SQL has it: one or zero. -/
def ofBool (b : Bool) : Value :=
  integer (if b then 1 else 0)

@[simp] theorem isNull_iff {v : Value} : v.isNull = true ↔ v = null := by
  cases v <;> simp [isNull]

end Value

end OnePassSql

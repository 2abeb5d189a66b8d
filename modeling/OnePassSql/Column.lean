import OnePassSql.Value.Coercion

/-! Columns: name, declared type, constraints, default value and the automatic counter. -/

namespace OnePassSql

/-- The constraints that a column declares. They are kept and shown; only the last has an effect. -/
structure ColumnFlags where
  notNull : Bool
  primaryKey : Bool
  autoIncrement : Bool
deriving DecidableEq, Repr

namespace ColumnFlags

/-- No constraint. -/
def empty : ColumnFlags := ⟨false, false, false⟩

/-- No constraint is declared. -/
def isEmpty (f : ColumnFlags) : Bool := !(f.notNull || f.primaryKey || f.autoIncrement)

/-- The constraints as bits of a number. -/
def bits (f : ColumnFlags) : Nat :=
  (if f.notNull then 0x100 else 0) + (if f.primaryKey then 0x200 else 0)
    + (if f.autoIncrement then 0x400 else 0)

end ColumnFlags

/-- A column. Names need not differ; a name means the first column that has it. -/
structure Column where
  name : String
  type : ColumnType
  flags : ColumnFlags
  /-- What a row holds that is created without a value here. -/
  default : Value
  /-- The next value that an automatic column gives. -/
  counter : Nat
deriving DecidableEq

namespace Column

/-- A column without constraints and default. -/
def plain (name : String) (type : ColumnType) : Column := ⟨name, type, .empty, .null, 0⟩

/-- A column whose default is brought to its type. -/
def declare (name : String) (type : ColumnType) (flags : ColumnFlags) (default : Value) :
    Except Fault Column := do
  let default ← default.coerce type
  return ⟨name, type, flags, default, 0⟩

/-- The same column with its counter at the start. -/
def fresh (c : Column) : Column := { c with counter := 0 }

/-- What a new row holds in the column if no value is given. -/
def fill (c : Column) : Value :=
  if c.flags.autoIncrement then .integer (Int64.ofNat c.counter) else c.default

/-- The column after a row was created: an automatic column counts on. -/
def advance (c : Column) : Column :=
  if c.flags.autoIncrement then { c with counter := c.counter + 1 } else c

end Column

end OnePassSql

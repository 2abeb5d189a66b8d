import OnePassSql.Statement.Session

/-!
CREATE TABLE. A column is a name, a type word and modifiers in any order. Constraints of the whole
table come last; they are read and not enforced.
-/

namespace OnePassSql

/-- What can be said about a column behind its type. -/
inductive Modifier where
  | notNull | primaryKey | unique | default | references | collate | constraint | null
deriving DecidableEq, Repr

namespace Parse

/-- The words that modifiers start with. None of them is taken for a type. -/
def modifierWords : List (String × Modifier) :=
  [("NOT", .notNull), ("PRIMARY", .primaryKey), ("UNIQUE", .unique), ("DEFAULT", .default),
    ("REFERENCES", .references), ("COLLATE", .collate), ("CONSTRAINT", .constraint),
    ("NULL", .null)]

/-- The next token starts a modifier. -/
def isModifierNext : Parse Bool := isNext (modifierWords.map Prod.fst)

/-- The fragments that a type word is recognised by. -/
def typeFragments : List (String × ColumnType) :=
  [("INT", .integer), ("CHAR", .text), ("CLOB", .text), ("TEXT", .text), ("BLOB", .none),
    ("REAL", .real), ("FLOA", .real), ("DOUB", .real)]

/-- The one or two sizes of a text type, which are ignored. -/
def typeSizes : Parse Unit := do
  if ← accept "(" then
    let _ ← expectNumber
    if ← accept "," then
      let _ ← expectNumber
    expect ")"

/-- A type whose word holds a known fragment. -/
def knownType? : Parse (Option ColumnType) := do
  match ← acceptHolding? typeFragments with
  | some .text => typeSizes; return some .text
  | other => return other

/-- The type behind a column's name. Another word than a modifier stands for NUMERIC. -/
def columnType : Parse ColumnType := do
  let known ← if ← isModifierNext then pure none else knownType?
  match known with
  | some type => return type
  | none =>
    if ← atEnd then return .none
    else if ← isNext [",", ")"] then return .none
    else if ← isModifierNext then return .none
    else
      let _ ← expectToken
      return .numeric

/-- The value of a default, computed on the spot. A sign may stand before it. -/
def defaultValue (b : Bindings) : Parse Value := do
  let _ ← accept "+"
  let e ← constantExpression
  settle ((e.bind b).eval .none)

/-- Reads what belongs to a modifier behind its first word, and adds what it says. -/
def modifier (b : Bindings) (flags : ColumnFlags) (default : Value) :
    Modifier → Parse (ColumnFlags × Value)
  | .notNull => do
    expect "NULL"
    conflictClause
    return ({ flags with notNull := true }, default)
  | .primaryKey => do
    expect "KEY"
    direction
    conflictClause
    let automatic ← accept "AUTOINCREMENT"
    return ({ flags with
      primaryKey := true, autoIncrement := flags.autoIncrement || automatic }, default)
  | .unique => do
    conflictClause
    return (flags, default)
  | .default => do
    let v ← defaultValue b
    return (flags, v)
  | .references => do
    let _ ← expectToken
    if ← isNext ["("] then
      let _ ← indexedColumns
    return (flags, default)
  | .collate => do
    collation
    return (flags, default)
  | .constraint => do
    let _ ← expectToken
    return (flags, default)
  | .null => return (flags, default)

/-- The modifiers of a column. Of several defaults the last counts. -/
def modifiers (b : Bindings) : Nat → ColumnFlags → Value → Parse (ColumnFlags × Value)
  | 0, _, _ => throw .exhausted
  | budget + 1, flags, default => do
    match ← acceptOne? modifierWords with
    | none => return (flags, default)
    | some m =>
      let (flags, default) ← modifier b flags default m
      modifiers b budget flags default

/-- The definition of a column. The name may be repeated. -/
def columnDefinition (b : Bindings) : Parse Column := do
  let name ← expectName
  let _ ← accept name
  let type ← columnType
  let (flags, default) ← modifiers b ((← get).ahead.length + 1) .empty .null
  settle (Column.declare name type flags default)

/-- `[CONSTRAINT name] PRIMARY KEY (...)` or `UNIQUE (...)`, for the whole table. -/
def tableConstraint : Parse Bool := do
  let named ← isNext ["CONSTRAINT"]
  if named then
    expect "CONSTRAINT"
    let _ ← expectToken
  let kinds := [("PRIMARY", true), ("UNIQUE", false)]
  match ← if named then some <$> expectOne kinds else acceptOne? kinds with
  | none => return false
  | some isPrimary =>
    if isPrimary then expect "KEY"
    let _ ← indexedColumns
    conflictClause
    return true

/-- More constraints, each behind a comma. -/
def moreConstraints : Nat → Parse Unit
  | 0 => throw .exhausted
  | budget + 1 => do
    if ← accept "," then
      if ← tableConstraint then moreConstraints budget
      else refuse ["PRIMARY", "UNIQUE"] (← position)

/-- The columns, and behind them the constraints. -/
def definitions (b : Bindings) : Nat → Parse (List Column)
  | 0 => throw .exhausted
  | budget + 1 => do
    if ← tableConstraint then
      moreConstraints budget
      return []
    else
      let c ← columnDefinition b
      if ← accept "," then
        let rest ← definitions b budget
        return c :: rest
      else return [c]

end Parse

namespace Statement

open Parse

variable {ρ : Type}

/-- Creates a table once its definition has been read. With IF NOT EXISTS it takes the place of one
that is there. -/
def createTable : Statement ρ Unit := do
  let replace ← ifExists true
  let name ← expectName
  expect "("
  let columns ← definitions (← bindings) ((← tokensLeft) + 1)
  expect ")"
  if (← get).database.tables.contains name && !replace then
    throw (.semantic (.tableExists name))
  change (.putTable name ⟨columns, []⟩)

end Statement

end OnePassSql

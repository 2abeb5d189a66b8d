import OnePassSql.Statement.Session

/-! Statements about the database itself: PRAGMA, DESC, ATTACH, ANALYZE and the transactions, which
are accepted and isolate nothing. -/

namespace OnePassSql.Statement

open Parse

variable {ρ : Type}

/-- What `PRAGMA table_info` tells of the columns of a table. -/
def tableInfo (t : Table) : Except Fault Table :=
  Table.ofRows
    [.plain "cid" .integer, .plain "name" .text, .plain "type" .none, .plain "notnull" .none,
      .plain "dflt_value" .text]
    (t.columns.zipIdx.map fun (c, i) =>
      [.integer (Int64.ofNat i), .text c.name, .null, .null, c.default])

/-- PRAGMA. The version is set and told, the columns of a table are told. -/
def pragma : Statement ρ Table := do
  if ← accept "user_version" then
    if ← accept "=" then
      let n ← expectNumber
      change (.setVersion n.toUInt64)
      return .empty
    else return .report "user_version" (← get).database.userVersion.toInt64
  else if ← accept "table_info" then
    expect "("
    let name ← expectName
    expect ")"
    let t ← table name
    settle (tableInfo t)
  else throw (.argument .pragma)

/-- What DESC tells of a column: a row of texts. -/
def columnDescription (c : Column) : List Value :=
  [.text c.name, .text (Text.lower c.type.name),
    .text (if c.flags.notNull then "NO" else "YES"),
    .text (if c.flags.primaryKey then "PRI" else ""),
    if c.default.isNull then .text "" else c.default, .text ""]

/-- What DESC tells of a table. -/
def tableDescription (t : Table) : Except Fault Table :=
  let field (name : String) : Column := .plain name .text
  let filled (name : String) : Column := { field name with default := .text "" }
  Table.ofRows
    [field "Field", field "Type", field "Null", filled "Key", filled "Default", filled "Extra"]
    (t.columns.map columnDescription)

/-- DESC -/
def describe : Statement ρ Table := do
  let name ← expectName
  let t ← table name
  settle (tableDescription t)

/-- BEGIN -/
def beginTransaction : Parse Unit := do
  let _ ← acceptOne? (plainWords ["DEFERRED", "IMMEDIATE", "EXCLUSIVE"])
  let _ ← accept "TRANSACTION"

/-- END, COMMIT and ROLLBACK -/
def endTransaction : Parse Unit := do
  let _ ← accept "TRANSACTION"

/-- ATTACH. A file that names no database is passed over. -/
def attach : Statement ρ Unit := do
  let _ ← accept "DATABASE"
  let file ← expectName
  expect "AS"
  let name ← expectName
  match (← get).database.files.get? file with
  | some database => change (.attach name database)
  | none => return

/-- ANALYZE -/
def analyze : Parse Unit := do
  if ← atEnd then return
  else if ← isNext [";"] then return
  else
    let _ ← expectName

end OnePassSql.Statement

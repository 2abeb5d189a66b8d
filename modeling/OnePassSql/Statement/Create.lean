import OnePassSql.Statement.CreateTable

/-! CREATE and DROP. Triggers, views and indexes are read and not kept. -/

namespace OnePassSql

/-- The kinds of objects. -/
inductive ObjectKind where
  | table | trigger | index | uniqueIndex | view
deriving DecidableEq, Repr

namespace Parse

/-- The statements in a trigger, each up to its semicolon, and the closing END. -/
def triggerBody : Nat → Parse Unit
  | 0 => throw .exhausted
  | budget + 1 => do
    if ← accept ";" then
      if ← accept "END" then return
      else triggerBody budget
    else
      let _ ← expectToken
      triggerBody budget

/-- The event that sets a trigger off, and for an update the columns it watches. -/
def triggerEvent : Parse Unit := do
  let isUpdate ← expectOne [("DELETE", false), ("INSERT", false), ("UPDATE", true)]
  if isUpdate then
    if ← accept "OF" then
      let _ ← commaSeparated expectToken

/-- A trigger behind its first word. -/
def trigger : Parse Unit := do
  let _ ← ifExists true
  let _ ← expectName
  if let some true ← acceptOne? [("BEFORE", false), ("AFTER", false), ("INSTEAD", true)] then
    expect "OF"
  triggerEvent
  expect "ON"
  let _ ← expectName
  if ← accept "FOR" then
    expect "EACH"
    expect "ROW"
  if ← accept "WHEN" then
    let _ ← expression
  expect "BEGIN"
  triggerBody ((← get).ahead.length + 1)

/-- A view behind its first word. -/
def view : Parse Unit := do
  let _ ← ifExists true
  let _ ← expectName
  expect "AS"
  skipStatement

/-- An index behind its first word. -/
def index : Parse Unit := do
  let _ ← ifExists true
  let _ ← expectName
  expect "ON"
  let _ ← expectName
  let _ ← indexedColumns

/-- An index behind `UNIQUE`. -/
def uniqueIndex : Parse Unit := do
  expect "INDEX"
  index

end Parse

namespace Statement

open Parse

variable {ρ : Type}

/-- What is done for each kind of object that can be made. -/
def creators : List (ObjectKind × Statement ρ Unit) :=
  [(.table, createTable), (.trigger, trigger), (.index, index), (.uniqueIndex, uniqueIndex),
    (.view, view)]

/-- Makes an object of the kind whose word was taken. -/
def createObject (kind : ObjectKind) : Statement ρ Unit :=
  match creators.lookup kind with
  | some creator => creator
  | none => throw (.unsupported .createKind)

/-- CREATE -/
def create : Statement ρ Unit := do
  let _ ← acceptOne? (plainWords ["TEMP", "TEMPORARY"])
  let kind ← expectOne [("TABLE", ObjectKind.table), ("TRIGGER", .trigger), ("INDEX", .index),
    ("UNIQUE", .uniqueIndex), ("VIEW", .view)]
  createObject kind

/-- DROP. Only tables are there to be dropped. -/
def drop : Statement ρ Unit := do
  let kind ← expectOne [("TABLE", ObjectKind.table), ("INDEX", .index), ("VIEW", .view),
    ("TRIGGER", .trigger)]
  let optional ← ifExists false
  let name ← expectName
  if kind = .table then
    let found := (← get).database.tables.contains name
    change (.dropTable name)
    if !found && !optional then throw (.semantic (.tableMissing name))

end Statement

end OnePassSql

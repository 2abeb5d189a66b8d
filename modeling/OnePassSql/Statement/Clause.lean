import OnePassSql.Parser.Expression
import OnePassSql.Expr.Evaluation
import OnePassSql.Database.Basic

/-! Clauses that several statements share. -/

namespace OnePassSql

namespace Parse

/-- Words without a meaning of their own. -/
def plainWords (words : List String) : List (String × Unit) := words.map fun w => (w, ())

/-- Reads an expression and puts the bound values into it. -/
def boundExpression (b : Bindings) : Parse Expr := do
  let e ← expression
  return e.bind b

/-- Reads an expression behind a keyword, if the keyword is there. -/
def optionalExpression (keyword : String) (b : Bindings) : Parse (Option Expr) := do
  if ← accept keyword then
    let e ← boundExpression b
    return some e
  else return none

/-- `IF EXISTS`, or `IF NOT EXISTS` if `negated`. -/
def ifExists (negated : Bool) : Parse Bool := do
  if ← accept "IF" then
    if negated then expect "NOT"
    expect "EXISTS"
    return true
  else return false

/-- What can be asked for on a conflict. -/
def conflictActions : List String := ["ROLLBACK", "ABORT", "FAIL", "IGNORE", "REPLACE"]

/-- `OR action` -/
def orAction : Parse Unit := do
  if ← accept "OR" then expectOne (plainWords conflictActions)

/-- `ON CONFLICT action` -/
def conflictClause : Parse Unit := do
  if ← accept "ON" then
    expect "CONFLICT"
    expectOne (plainWords conflictActions)

/-- The name of a collation. -/
def collation : Parse Unit :=
  expectOne (plainWords ["BINARY", "NOCASE", "RTRIM", "LOCALIZED", "UNICODE"])

/-- `ASC` or `DESC`, if one is there. -/
def direction : Parse Unit := do
  let _ ← acceptOne? (plainWords ["ASC", "DESC"])

/-- A column of an index: a name, a collation, a direction. -/
def indexedColumn : Parse String := do
  let name ← expectName
  if ← accept "COLLATE" then collation
  direction
  return name

/-- The columns of an index, in parentheses. -/
def indexedColumns : Parse (List String) := do
  expect "("
  let names ← commaSeparated indexedColumn
  expect ")"
  return names

/-- Takes the tokens up to the end of the statement. -/
def skipStatement : Parse Unit := do
  modify fun p => { p with ahead := go p.ahead }
  let _ ← peek
where
  /-- The tokens from the first semicolon. -/
  go : TokenStream → TokenStream
    | .token first rest => if first.is ";" then .token first rest else go rest
    | s => s

end Parse

end OnePassSql

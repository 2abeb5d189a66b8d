import OnePassSql.Statement.Session
import OnePassSql.Table.Selection
import OnePassSql.Table.Union

/-!
SELECT. A core is carried out as soon as it has been read; a compound is applied to what was
accumulated before the next one is read, with the later core first. ORDER BY and LIMIT are read and
do not shape the result.
-/

namespace OnePassSql

/-- How two cores are combined. -/
inductive Compound where
  | union | intersect | except
deriving DecidableEq, Repr

namespace Select

variable {ρ : Type} [Record ρ]

open Parse Statement

/-- Computes the result of a core. -/
def extract (t : Table) (columns : Option (List Expr)) (predicate : Option Expr) :
    Statement ρ Table := do
  settle (t.extract (← get).records columns predicate)

/-- Appends the rows of `other` to those of `t`. Linked records are told of the new columns. -/
def unite (t other : Table) : Statement ρ Table := fun s =>
  match Edit.union other ⟨t, s.records⟩ with
  | .ok _ sheet => .ok sheet.table { s with records := sheet.records }
  | .error fault sheet => .error fault { s with records := sheet.records }

/-- Applies the compound that led to this core. -/
def combine (t : Table) : Option (Table × Compound) → Statement ρ Table
  | none => return t
  | some (left, .union) => unite t left
  | some (_, .intersect) => throw (.unsupported .intersect)
  | some (_, .except) => throw (.unsupported .except)

/-- The word between two cores, if there is one. UNION ALL is the same as UNION. -/
def compound? : Parse (Option Compound) := do
  match ← acceptOne? [("UNION", Compound.union), ("INTERSECT", .intersect), ("EXCEPT", .except)] with
  | some .union =>
    let _ ← accept "ALL"
    return some .union
  | other => return other

/-- The columns of a core; a star stands for all. -/
def resultColumns (b : Bindings) : Parse (Option (List Expr)) := do
  if ← accept "*" then return none
  else
    let exprs ← commaSeparated (boundExpression b)
    return some exprs

/-- `GROUP BY ... HAVING ...`, which is read only. -/
def grouping : Parse Unit := do
  if ← accept "GROUP" then
    expect "BY"
    let _ ← commaSeparated expression
    if ← accept "HAVING" then
      let _ ← expression

/-- An expression of ORDER BY with its direction. -/
def orderingTerm : Parse Unit := do
  let _ ← expression
  direction

/-- `ORDER BY ...`, which is read only. -/
def ordering : Parse Unit := do
  if ← accept "ORDER" then
    expect "BY"
    let _ ← commaSeparated orderingTerm

/-- `LIMIT ...`, which is read only. -/
def limit : Parse Unit := do
  if ← accept "LIMIT" then
    let _ ← expectNumber
    if (← acceptOne? (plainWords [",", "OFFSET"])).isSome then
      let _ ← expectNumber

/-- The words that join sources. -/
def joinWords : List String := ["JOIN", "NATURAL", "LEFT", "OUTER", "INNER", "CROSS"]

/-- The sign or word behind a source that starts a join. -/
def joinStart? : Parse (Option String) :=
  acceptOne? (("," :: joinWords).map fun w => (w, w))

/-- What a join is made on. -/
def joinCondition : Parse Unit := do
  if ← accept "ON" then
    let _ ← expression
  else if ← accept "USING" then
    let _ ← indexedColumns

mutual

/-- A SELECT behind its first word, with the cores and the compound before it. -/
def selectWithin : Nat → Option (Table × Compound) → Statement ρ Table
  | 0, _ => throw .exhausted
  | budget + 1, left => do
    let core ← coreWithin budget
    let result ← combine core left
    let result ← match ← compound? with
      | none => pure result
      | some compound =>
        expect "SELECT"
        selectWithin budget (some (result, compound))
    ordering
    limit
    return result

/-- One core: columns, source, predicate and grouping. -/
def coreWithin : Nat → Statement ρ Table
  | 0 => throw .exhausted
  | budget + 1 => do
    let _ ← acceptOne? (plainWords ["ALL", "DISTINCT"])
    let columns ← resultColumns (← bindings)
    let source ←
      if ← accept "FROM" then joinedWithin budget
      else if columns.isNone then throw (.semantic .noTables)
      else pure .unit
    let predicate ← optionalExpression "WHERE" (← bindings)
    grouping
    extract source columns predicate

/-- A source, and perhaps a join, which is read and refused. -/
def joinedWithin : Nat → Statement ρ Table
  | 0 => throw .exhausted
  | budget + 1 => do
    let source ← sourceWithin budget
    match ← joinStart? with
    | none => return source
    | some word =>
      skipWords joinWords
      let _ ← sourceWithin budget
      joinCondition
      throw (.unsupported (.join word))

/-- A table by name, or a SELECT or another source in parentheses. -/
def sourceWithin : Nat → Statement ρ Table
  | 0 => throw .exhausted
  | budget + 1 => do
    let source ←
      if ← accept "(" then
        let inner ←
          if ← accept "SELECT" then selectWithin budget none
          else joinedWithin budget
        expect ")"
        pure inner
      else
        let name ← expectName
        table name
    if ← accept "AS" then
      let _ ← expectToken
    return source

end

/-- A SELECT behind its first word. -/
def select : Statement ρ Table := do
  selectWithin (4 * (← tokensLeft) + 4) none

end Select

end OnePassSql

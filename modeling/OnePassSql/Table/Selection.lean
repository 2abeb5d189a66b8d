import OnePassSql.Table.Basic
import OnePassSql.Expr.Evaluation
import OnePassSql.Expr.Written

/-! Selection and projection: the rows that satisfy a predicate and the columns computed on them. -/

namespace OnePassSql.Table

variable {ρ : Type} [Record ρ]

/-- The type that the first column of the name declares. -/
def columnType (t : Table) (name : String) : Except Fault ColumnType :=
  match t.columns.find? fun c => c.name == name with
  | some c => .ok c.type
  | none => .error (.semantic (.noSuchColumn name))

/-- The scope of the table without a row: columns have types and no values. -/
def scope (t : Table) : Scope where
  value name :=
    match t.columnIndex? name with
    | some _ => .error (.semantic (.columnOutsideRow name))
    | none => .error (.semantic (.noSuchColumn name))
  type := t.columnType

/-- The scope of one row. -/
def rowScope (records : Records ρ) (t : Table) (row : Nat) : Scope where
  value name :=
    match t.columnIndex? name with
    | some column => .ok (t.cell records row column)
    | none => .error (.semantic (.noSuchColumn name))
  type := t.columnType

/-- Of the given rows those on which the predicate is the integer one. -/
def filterRows (records : Records ρ) (t : Table) (predicate : Expr) :
    List Nat → Except Fault (List Nat)
  | [] => .ok []
  | row :: rest => do
    let v ← predicate.eval (t.rowScope records row)
    let matched ← filterRows records t predicate rest
    return if v = .integer 1 then row :: matched else matched

/-- The rows that satisfy the predicate, in order; without a predicate all of them. -/
def rowsWhere (records : Records ρ) (t : Table) (predicate : Option Expr) :
    Except Fault (List Nat) :=
  match predicate with
  | none => .ok (List.range t.rows.length)
  | some e => t.filterRows records e (List.range t.rows.length)

/-- The values of expressions on one row. -/
def project (records : Records ρ) (t : Table) (exprs : List Expr) (row : Nat) :
    Except Fault (List Value) :=
  exprs.mapM fun e => e.eval (t.rowScope records row)

/-- The value is a real. -/
def isReal : Value → Bool
  | .real _ => true
  | _ => false

/-- The type of a result column. Integer arithmetic may have left the integers, and then the whole
column is real. -/
def widen (type : ColumnType) (values : List (Option Value)) : ColumnType :=
  if type = .integer ∧ values.any (fun v => v.any isReal) then .real else type

/-- The columns of a projection, named after the expressions. -/
def projectedColumns (exprs : List Expr) (types : List ColumnType) (values : List (List Value)) :
    List Column :=
  (exprs.zip types).zipIdx.map fun ((e, type), x) =>
    .plain e.label (widen type (values.map fun row => row[x]?))

/-- The table of the rows that satisfy the predicate: all columns, linked rows still linked; or one
column for each expression. -/
def extract (records : Records ρ) (t : Table) (columns : Option (List Expr))
    (predicate : Option Expr) : Except Fault Table := do
  let matched ← t.rowsWhere records predicate
  match columns with
  | none => return ⟨t.columns.map Column.fresh, matched.filterMap fun row => t.rows[row]?⟩
  | some exprs =>
    let types ← exprs.mapM fun e => e.staticType t.scope
    let values ← matched.mapM (t.project records exprs)
    ofRows (projectedColumns exprs types values) values

end OnePassSql.Table

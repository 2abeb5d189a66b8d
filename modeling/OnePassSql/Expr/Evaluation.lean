import OnePassSql.Expr.Basic

/-!
Evaluation of expressions. What a column name means is the matter of a `Scope`; the tables supply
them.
-/

namespace OnePassSql

/-- What column names stand for: the value in the current row and the declared type. -/
structure Scope where
  value : String → Except Fault Value
  type : String → Except Fault ColumnType

/-- The scope without a table, where no column can be named. -/
def Scope.none : Scope where
  value name := .error (.semantic (.columnWithoutTable name))
  type name := .error (.semantic (.noSuchColumn name))

namespace Expr

mutual

/-- The value of an expression. Both operands of AND and OR are evaluated; the arguments of
COALESCE only up to the first that is not null. -/
def eval (scope : Scope) : Expr → Except Fault Value
  | literal v => .ok v
  | parameter _ => .ok .null
  | column name => scope.value name
  | unary op e => do
    let v ← eval scope e
    op.apply v
  | binary op l r => do
    let v ← eval scope l
    let w ← eval scope r
    op.apply v w
  | call function arguments =>
    if Text.sameWord function "COALESCE" then firstValue scope arguments
    else .error (.unsupported (.unknownFunction function))
  | membership .. => .error (.unsupported .membership)

/-- The first value that is not null. -/
def firstValue (scope : Scope) : List Expr → Except Fault Value
  | [] => .ok .null
  | e :: rest => do
    let v ← eval scope e
    if v.isNull then firstValue scope rest else return v

end

/-- The type of the values that an expression produces. -/
def staticType (scope : Scope) : Expr → Except Fault ColumnType
  | literal v => .ok v.type
  | parameter _ => .ok .none
  | column name => scope.type name
  | unary .negate e => staticType scope e
  | unary _ _ => .ok .integer
  | binary op l r => op.resultType (staticType scope l) (staticType scope r)
  | call function _ => .error (.unsupported (.functionType function))
  | membership .. => .ok .integer

theorem eval_binary {scope : Scope} {e f : Expr} {v w : Value} (hv : e.eval scope = .ok v)
    (hw : f.eval scope = .ok w) (op : BinaryOp) :
    (binary op e f).eval scope = op.apply v w := by
  rw [eval, hv, hw]
  rfl

end Expr

end OnePassSql

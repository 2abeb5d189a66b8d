import OnePassSql.Bindings
import OnePassSql.Operator

/-! Expression trees. -/

namespace OnePassSql

/-- An expression. The parser leaves a `parameter` for each `?`; `Expr.bind` puts values there. -/
inductive Expr where
  | literal (v : Value)
  | parameter (index : Nat)
  | column (name : String)
  | unary (op : UnaryOp) (operand : Expr)
  | binary (op : BinaryOp) (left right : Expr)
  | call (function : String) (arguments : List Expr)
  /-- A test for membership. The list in parentheses is kept as the text of its tokens. -/
  | membership (operand : Expr) (list : String) (negated : Bool)

namespace Expr

instance : Inhabited Expr := ⟨literal .null⟩

mutual

/-- Puts the bound values in place of the parameters. -/
def bind (b : Bindings) : Expr → Expr
  | literal v => literal v
  | parameter index => literal (b.valueAt index)
  | column name => column name
  | unary op e => unary op (bind b e)
  | binary op l r => binary op (bind b l) (bind b r)
  | call function arguments => call function (bindAll b arguments)
  | membership e list negated => membership (bind b e) list negated

/-- Puts the bound values in place of the parameters of each expression. -/
def bindAll (b : Bindings) : List Expr → List Expr
  | [] => []
  | e :: rest => bind b e :: bindAll b rest

end

@[simp] theorem bindAll_eq_map (b : Bindings) (es : List Expr) :
    bindAll b es = es.map (bind b) := by
  induction es with
  | nil => rfl
  | cons e rest ih => simp [bindAll, ih]

end Expr

end OnePassSql

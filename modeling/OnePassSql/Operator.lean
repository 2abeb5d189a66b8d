import OnePassSql.Value.Arithmetic
import OnePassSql.Value.Order

/-! Operators of expressions: their signs, how tightly they bind and what they compute. -/

namespace OnePassSql

/-- The operators between two operands. -/
inductive BinaryOp where
  | concat | eq | ne | and | or | lt | le | gt | ge | add | sub | mul | div | mod
  | shiftLeft | shiftRight
deriving DecidableEq, Repr

/-- The operators on one operand. The last two stand behind it. -/
inductive UnaryOp where
  | not | negate | notNull | isNull
deriving DecidableEq, Repr

namespace BinaryOp

/-- All of them. -/
def all : List BinaryOp :=
  [concat, eq, ne, and, or, lt, le, gt, ge, add, sub, mul, div, mod, shiftLeft, shiftRight]

/-- How tightly the operator binds. AND binds more loosely than OR. -/
def precedence : BinaryOp → Nat
  | and => 1
  | or => 2
  | eq | ne => 3
  | lt | le | gt | ge => 4
  | shiftLeft | shiftRight => 5
  | add | sub => 6
  | mul | div | mod => 7
  | concat => 8

/-- The sign that the operator is written with. -/
def symbol : BinaryOp → String
  | concat => "||"
  | eq => "=="
  | ne => "!="
  | and => "AND"
  | or => "OR"
  | lt => "<"
  | le => "<="
  | gt => ">"
  | ge => ">="
  | add => "+"
  | sub => "-"
  | mul => "*"
  | div => "/"
  | mod => "%"
  | shiftLeft => "<<"
  | shiftRight => ">>"

/-- The value of the operator on two values. Smaller-or-equal holds if one of the two does, so a
null is at most a null. -/
def apply (op : BinaryOp) (v w : Value) : Except Fault Value :=
  match op with
  | concat => .ok (v.concat w)
  | eq => .ok (.ofBool (v.equal w))
  | ne => .ok (.ofBool (!v.equal w))
  | and => .ok (.ofBool (v.isTrue && w.isTrue))
  | or => .ok (.ofBool (v.isTrue || w.isTrue))
  | lt => Value.ofBool <$> v.less w
  | le => (fun b => Value.ofBool (b || v.equal w)) <$> v.less w
  | gt => Value.ofBool <$> v.greater w
  | ge => (fun b => Value.ofBool (b || v.equal w)) <$> v.greater w
  | add => v.add w
  | sub => v.sub w
  | mul => v.mul w
  | div => v.div w
  | mod => v.mod w
  | shiftLeft => v.shiftLeft w
  | shiftRight => v.shiftRight w

/-- The type of the results of the operator on operands of the given types; the operands are asked
for theirs only where the result depends on them. -/
def resultType (op : BinaryOp) (left right : Except Fault ColumnType) : Except Fault ColumnType :=
  match op with
  | concat => .ok .text
  | add | sub | mul | div | mod => do
    if (← left) = .integer then
      return if (← right) = .integer then .integer else .real
    else return .real
  | _ => .ok .integer

end BinaryOp

namespace UnaryOp

/-- The value of the operator on a value. -/
def apply (op : UnaryOp) (v : Value) : Except Fault Value :=
  match op with
  | not => .ok (.ofBool (!v.isTrue))
  | negate => v.negate
  | notNull => .ok (.ofBool (!v.isNull))
  | isNull => .ok (.ofBool v.isNull)

end UnaryOp

end OnePassSql

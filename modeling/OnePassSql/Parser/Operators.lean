import OnePassSql.Parser.Basic
import OnePassSql.Operator

/-!
Operators in the token stream. Four of them are two signs that stand side by side without a blank:
`||`, `<<`, `>>` and `<>`.
-/

namespace OnePassSql.Parse

/-- The operators of one token. -/
def singleSigns : List (String × BinaryOp) :=
  [("=", .eq), ("==", .eq), ("!=", .ne), ("<=", .le), (">=", .ge), ("AND", .and), ("OR", .or),
    ("+", .add), ("-", .sub), ("*", .mul), ("/", .div), ("%", .mod), ("<", .lt), (">", .gt)]

/-- The operators of two signs, by the first of them. -/
def pairedSigns (first : Token) : List (String × BinaryOp) :=
  if first.is "<" then [("<", .shiftLeft), (">", .ne)]
  else if first.is ">" then [(">", .shiftRight)]
  else if first.is "|" then [("|", .concat)]
  else []

/-- The operator of two signs that `second` completes directly behind `first`. -/
def paired? (first second : Token) : Option BinaryOp :=
  if second.position = first.stop then meaning? (pairedSigns first) second else none

/-- The operator that is next, with the tokens behind it. Takes nothing; but a fault behind the
first of two signs is met with that sign taken. -/
def peekOperator? : Parse (Option (BinaryOp × TokenStream)) := do
  match ← peek with
  | none => return none
  | some first =>
    let here := (← get).ahead
    if (pairedSigns first).isEmpty then
      return (meaning? singleSigns first).map fun op => (op, here.tail)
    else
      skip
      let second ← peek
      resume here
      match second.bind (paired? first) with
      | some op => return some (op, here.tail.tail)
      | none => return (meaning? singleSigns first).map fun op => (op, here.tail)

end OnePassSql.Parse

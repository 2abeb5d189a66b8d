import OnePassSql.Parser.Operators
import OnePassSql.Expr.Basic

/-!
Expressions read by precedence climbing. The loops carry a step budget that is taken from the
number of tokens left; every round of a loop takes a token.
-/

namespace OnePassSql.Parse

/-- The parameter index that digits spell, if it fits 64 bits. -/
def parameterIndex? (digits : String) : Option Nat :=
  let n := Binary64.digitsValue digits.toList
  if n < UInt64.size then some n else none

/-- Moves the cursor to the index that digits directly behind the question mark name. -/
def placeCursor (question : Token) : Parse Unit := do
  match ← peek with
  | none => return
  | some t =>
    if t.kind = .number ∧ t.position = question.position + 1 then
      skip
      match parameterIndex? t.text with
      | some n => modify fun p => { p with cursor := n }
      | none => throw (.parse .parameterOutOfRange t.position)

/-- The parameter behind a question mark: the one at the cursor, which moves on by one. -/
def parameter (question : Token) : Parse Expr := do
  placeCursor question
  let index := (← get).cursor
  if index + 1 < UInt64.size then
    modify fun p => { p with cursor := index + 1 }
    return .parameter index
  else throw (.parse .parameterOutOfRange question.position)

/-- The least integer, whose digits only fit 64 bits together with their sign. They stand directly
behind the minus, and no operator follows them; otherwise nothing is taken. -/
def leastInteger? (minus : Token) : Parse (Option Expr) := do
  match ← peek with
  | none => return none
  | some t =>
    if t.kind = .number ∧ t.position = minus.position + 1
        ∧ Binary64.digitsValue t.text.toList = Nat.pow 2 63 then
      let here := (← get).ahead
      skip
      match ← peekOperator? with
      | some _ => resume here; return none
      | none => return some (.literal (.integer Int64.minValue))
    else return none

/-- The parenthesized list of a membership test, as the texts of its tokens. -/
def membershipList : Parse String := do
  expect "("
  let here := (← get).ahead
  match here.enclosed? 1 with
  | some (tokens, rest) =>
    resume rest
    return " ".intercalate (tokens.map Token.text)
  | none =>
    resume here.ending
    let t ← expectToken
    return t.text

/-- The forms that can stand behind an operand. -/
inductive Suffix where
  | negated | notNull | isNull | membership

/-- Reads `NOT NULL`, `NOTNULL`, `ISNULL` or `[NOT] IN (...)` behind an operand. -/
def suffix? (operand : Expr) : Parse (Option Expr) := do
  match ← acceptOne? [("NOT", Suffix.negated), ("NOTNULL", .notNull), ("ISNULL", .isNull),
    ("IN", .membership)] with
  | none => return none
  | some .notNull => return some (.unary .notNull operand)
  | some .isNull => return some (.unary .isNull operand)
  | some .membership =>
    let list ← membershipList
    return some (.membership operand list false)
  | some .negated =>
    if ← expectOne [("NULL", true), ("IN", false)] then
      return some (.unary .notNull operand)
    else
      let list ← membershipList
      return some (.membership operand list true)

/-- What a token that stands alone means as an operand. -/
def atom (t : Token) (start : Nat) : Parse Expr :=
  match t.kind with
  | .number =>
    match integerOfText? t.text with
    | some n => return .literal (.integer n)
    | none => throw (.parse .numberOutOfRange t.position)
  | .string => return .literal (.text t.unquoted)
  | .word => return .column t.text
  | .quotedName => return .column t.unquoted
  | .symbol => refuse ["Expression"] start

mutual

/-- An operand and the operators behind it. -/
def expressionWithin : Nat → Parse Expr
  | 0 => throw .exhausted
  | budget + 1 => do
    let left ← operandWithin budget
    climbWithin budget left 0

/-- An operand: an atom, a call, a parenthesized expression, or a sign with what it applies to. NOT
covers the next operand only, a minus everything that follows. -/
def operandWithin : Nat → Parse Expr
  | 0 => throw .exhausted
  | budget + 1 => do
    let start ← position
    let t ← expectToken
    if t.is "COALESCE" then
      expect "("
      let arguments ← argumentsWithin budget
      expect ")"
      return .call "COALESCE" arguments
    else if t.is "NULL" then return .literal .null
    else if t.is "NOT" then
      let operand ← operandWithin budget
      return .unary .not operand
    else if t.is "(" then
      let e ← withSuffixes true (expressionWithin budget)
      expect ")"
      return e
    else if t.is "?" then parameter t
    else if t.is "-" then
      match ← leastInteger? t with
      | some e => return e
      | none =>
        let operand ← expressionWithin budget
        return .unary .negate operand
    else atom t start

/-- Expressions with commas between them. -/
def argumentsWithin : Nat → Parse (List Expr)
  | 0 => throw .exhausted
  | budget + 1 => do
    let e ← expressionWithin budget
    if ← accept "," then
      let rest ← argumentsWithin budget
      return e :: rest
    else return [e]

/-- Extends an operand by the operators that bind at least as tightly as `least`, and by the forms
that stand behind it. -/
def climbWithin : Nat → Expr → Nat → Parse Expr
  | 0, _, _ => throw .exhausted
  | budget + 1, left, least => do
    match ← peekOperator? with
    | some (op, behind) =>
      if op.precedence < least then return left
      else
        resume behind
        let operand ← operandWithin budget
        let right ← tightenWithin budget op operand
        climbWithin budget (.binary op left right) least
    | none =>
      if (← get).suffixes then
        match ← suffix? left with
        | some e => climbWithin budget e least
        | none => return left
      else return left

/-- Extends a right operand while the operator behind it binds more tightly than `op`. -/
def tightenWithin : Nat → BinaryOp → Expr → Parse Expr
  | 0, _, _ => throw .exhausted
  | budget + 1, op, right => do
    match ← peekOperator? with
    | some (tighter, _) =>
      if tighter.precedence ≤ op.precedence then return right
      else
        let right ← climbWithin budget right tighter.precedence
        tightenWithin budget op right
    | none => return right

end

/-- A step budget that no expression on the tokens left uses up. -/
def budget : Parse Nat := return 4 * (← get).ahead.length + 4

/-- Reads an expression. -/
def expression : Parse Expr := do
  expressionWithin (← budget)

/-- Reads an expression up to the first form that stands behind an operand. Parenthesized
expressions inside still take theirs. -/
def constantExpression : Parse Expr :=
  withSuffixes false expression

/-- Reads an operand. -/
def operand : Parse Expr := do
  operandWithin (← budget)

end OnePassSql.Parse

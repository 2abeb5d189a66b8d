import OnePassSql.Proofs.Parser.Progress
import OnePassSql.Statement.Select

/-!
Expressions and the clauses of a SELECT only take tokens. An operator is looked at before it is
taken, so the loops of the expressions go on from a place that looking has shown to be ahead.
-/

namespace OnePassSql.Parse

open Step

variable {α : Type}

/-! ## Operands -/

theorem movesOn_placeCursor (question : Token) : MovesOn (placeCursor question) := by
  unfold placeCursor
  refine movesOn_peek.bind fun t => ?_
  cases t with
  | none => exact respects_pure _
  | some t =>
      dsimp only
      split
      · refine movesOn_skip.bind fun _ => ?_
        split
        · exact respects_modify fun p => .refl p.ahead
        · exact respects_throw _
      · exact respects_pure _

/-- A number that stands directly behind a sign of one character. -/
def IsNumberBehind (sign t : Token) : Prop := t.kind = .number ∧ t.position = sign.position + 1

theorem placeCursor_of_done {p : Parser} {n : Nat} (h : p.ahead = .done n) (question : Token) :
    placeCursor question p = .ok ⟨⟩ p := by
  rw [placeCursor, bind_apply_ok (peek_of_done h)]
  rfl

theorem placeCursor_of_not_number {p : Parser} {t : Token} {rest : TokenStream} {question : Token}
    (h : p.ahead = .token t rest) (ht : ¬IsNumberBehind question t) :
    placeCursor question p = .ok ⟨⟩ p := by
  rw [placeCursor, bind_apply_ok (peek_of_token h)]
  unfold IsNumberBehind at ht
  dsimp only
  rw [if_neg ht]
  rfl

theorem placeCursor_of_number {p : Parser} {t : Token} {rest : TokenStream} {question : Token}
    (h : p.ahead = .token t rest) (ht : IsNumberBehind question t) :
    placeCursor question p = match parameterIndex? t.text with
      | some n => .ok ⟨⟩ ⟨rest, n, p.suffixes⟩
      | none => .error (.parse .parameterOutOfRange t.position) { p with ahead := rest } := by
  rw [placeCursor, bind_apply_ok (peek_of_token h)]
  unfold IsNumberBehind at ht
  dsimp only
  rw [if_pos ht, bind_apply_ok (skip_of_token h)]
  cases parameterIndex? t.text <;> rfl

/-- The parameter at the cursor, which moves on by one. -/
def parameterHere (question : Token) : Parse Expr := do
  let index := (← get).cursor
  if index + 1 < UInt64.size then
    modify fun p => { p with cursor := index + 1 }
    return .parameter index
  else throw (.parse .parameterOutOfRange question.position)

theorem parameter_eq_bind (question : Token) :
    parameter question = placeCursor question >>= fun _ => parameterHere question := rfl

theorem movesOn_parameterHere (question : Token) : MovesOn (parameterHere question) := by
  refine respects_get.bind fun p => ?_
  dsimp only
  split
  · exact (respects_modify fun p => .refl p.ahead).bind fun _ => respects_pure _
  · exact respects_throw _

theorem movesOn_parameter (question : Token) : MovesOn (parameter question) :=
  (movesOn_placeCursor question).bind fun _ => movesOn_parameterHere question

theorem movesOn_leastInteger? (minus : Token) : MovesOn (leastInteger? minus) := by
  intro p
  refine respects_bind_at (movesOn_peek p) fun t q hpeek => ?_
  obtain ⟨rfl, -⟩ := peek_eq_ok hpeek
  cases t with
  | none => exact refl q
  | some t =>
      dsimp only
      split
      · rw [stateAfter_bind_of_ok (get_apply q), stateAfter_bind_of_ok (skip_apply q)]
        have hskip : Parser.LeadsTo q { q with ahead := q.ahead.tail } := q.ahead.leadsTo_tail
        cases hop : peekOperator? { q with ahead := q.ahead.tail } with
        | ok found r =>
            obtain ⟨rfl, -⟩ := peekOperator?_eq_ok hop
            rw [stateAfter_bind_of_ok hop]
            cases found with
            -- an operator puts the digits back
            | some found => exact refl q
            | none => exact hskip
        | error e r =>
            rw [stateAfter_bind_of_error hop]
            exact IsTrans.trans _ _ _ hskip (movesOn_peekOperator?.error hop)
      · exact refl q

/-- The list of a membership test behind its opening parenthesis. -/
def listBehindParenthesis : Parse String := do
  let here := (← get).ahead
  match here.enclosed? 1 with
  | some (tokens, rest) =>
    resume rest
    return " ".intercalate (tokens.map Token.text)
  | none =>
    resume here.ending
    let t ← expectToken
    return t.text

theorem movesOn_listBehindParenthesis : MovesOn listBehindParenthesis := by
  intro p
  refine respects_bind_at (respects_get p) fun here q hget => ?_
  cases hget
  dsimp only
  cases hlist : p.ahead.enclosed? 1 with
  | some found =>
      refine respects_bind_at ?_ fun _ q _ => respects_pure _ q
      exact TokenStream.leadsTo_of_enclosed? hlist
  | none =>
      refine respects_bind_at ?_ fun _ q _ => ?_
      · exact TokenStream.leadsTo_ending _
      · exact (movesOn_expectToken.bind fun _ => respects_pure _) q

theorem movesOn_membershipList : MovesOn membershipList :=
  (movesOn_expect "(").bind fun _ => movesOn_listBehindParenthesis

theorem movesOn_suffix? (operand : Expr) : MovesOn (suffix? operand) := by
  unfold suffix?
  refine (movesOn_acceptOne? _).bind fun found => ?_
  cases found with
  | none => exact respects_pure _
  | some form =>
      cases form with
      | notNull => exact respects_pure _
      | isNull => exact respects_pure _
      | membership => exact movesOn_membershipList.bind fun _ => respects_pure _
      | negated =>
          refine (movesOn_expectOne _).bind fun isNull => ?_
          cases isNull with
          | true => exact respects_pure _
          | false => exact movesOn_membershipList.bind fun _ => respects_pure _

theorem movesOn_atom (t : Token) (start : Nat) : MovesOn (atom t start) := by
  unfold atom
  split
  · split
    · exact respects_pure _
    · exact respects_throw _
  · exact respects_pure _
  · exact respects_pure _
  · exact respects_pure _
  · exact movesOn_refuse _ _

/-! ## Expressions -/

section Loops

variable {budget : Nat}

/-- An operand behind its first token. -/
def operandFrom (budget start : Nat) (t : Token) : Parse Expr := do
  if t.is "COALESCE" then
    expect "("
    let arguments ← argumentsWithin budget
    expect ")"
    return .call "COALESCE" arguments
  else if t.is "NULL" then return .literal .null
  else if t.is "NOT" then
    let operand ← operandWithin budget
    return .unary .not operand
  else if t.is "(" then
    let e ← withSuffixes true (expressionWithin budget)
    expect ")"
    return e
  else if t.is "?" then parameter t
  else if t.is "-" then
    match ← leastInteger? t with
    | some e => return e
    | none =>
      let operand ← expressionWithin budget
      return .unary .negate operand
  else atom t start

theorem operandWithin_succ (budget : Nat) :
    operandWithin (budget + 1)
      = position >>= fun start => expectToken >>= operandFrom budget start := rfl

theorem movesOn_operandFrom (hexpression : MovesOn (expressionWithin budget))
    (hoperand : MovesOn (operandWithin budget)) (harguments : MovesOn (argumentsWithin budget))
    (start : Nat) (t : Token) : MovesOn (operandFrom budget start t) := by
  unfold operandFrom
  split
  · exact (movesOn_expect _).bind fun _ => harguments.bind fun _ =>
      (movesOn_expect _).bind fun _ => respects_pure _
  split
  · exact respects_pure _
  split
  · exact hoperand.bind fun _ => respects_pure _
  split
  · exact (movesOn_withSuffixes hexpression true).bind fun _ =>
      (movesOn_expect _).bind fun _ => respects_pure _
  split
  · exact movesOn_parameter t
  split
  · refine (movesOn_leastInteger? t).bind fun found => ?_
    cases found with
    | some e => exact respects_pure _
    | none => exact hexpression.bind fun _ => respects_pure _
  · exact movesOn_atom t start

theorem movesOn_operandWithin_succ (hexpression : MovesOn (expressionWithin budget))
    (hoperand : MovesOn (operandWithin budget)) (harguments : MovesOn (argumentsWithin budget)) :
    MovesOn (operandWithin (budget + 1)) :=
  movesOn_position.bind fun start => movesOn_expectToken.bind fun t =>
    movesOn_operandFrom hexpression hoperand harguments start t

theorem movesOn_argumentsWithin_succ (hexpression : MovesOn (expressionWithin budget))
    (harguments : MovesOn (argumentsWithin budget)) : MovesOn (argumentsWithin (budget + 1)) := by
  refine hexpression.bind fun e => (movesOn_accept ",").bind fun more => ?_
  cases more with
  | true => exact harguments.bind fun _ => respects_pure _
  | false => exact respects_pure _

/-- Climbing on from what was found where an operator can stand. -/
def climbFrom (budget : Nat) (left : Expr) (least : Nat) :
    Option (BinaryOp × TokenStream) → Parse Expr
  | some (op, behind) =>
    if op.precedence < least then return left
    else do
      resume behind
      let operand ← operandWithin budget
      let right ← tightenWithin budget op operand
      climbWithin budget (.binary op left right) least
  | none => do
    if (← get).suffixes then
      match ← suffix? left with
      | some e => climbWithin budget e least
      | none => return left
    else return left

theorem climbWithin_succ (budget : Nat) (left : Expr) (least : Nat) :
    climbWithin (budget + 1) left least = peekOperator? >>= climbFrom budget left least := rfl

/-- Climbing only takes tokens if it goes on with what is ahead. -/
theorem movesOn_climbFrom_at (hoperand : MovesOn (operandWithin budget))
    (hclimb : ∀ left least, MovesOn (climbWithin budget left least))
    (htighten : ∀ op right, MovesOn (tightenWithin budget op right)) (left : Expr) (least : Nat)
    {found : Option (BinaryOp × TokenStream)} {p q : Parser} (hop : peekOperator? p = .ok found q) :
    q.LeadsTo (stateAfter (climbFrom budget left least found) q) := by
  obtain ⟨rfl, hbehind⟩ := peekOperator?_eq_ok hop
  cases found with
  | some found =>
      obtain ⟨op, behind⟩ := found
      unfold climbFrom
      dsimp only
      split
      · exact refl q
      · refine respects_bind_at (hbehind op behind rfl).1 fun _ q _ => ?_
        exact (hoperand.bind fun operand => (htighten op operand).bind fun right =>
          hclimb (.binary op left right) least) q
  | none =>
      refine (respects_get.bind fun p => ?_ : MovesOn _) q
      split
      · refine (movesOn_suffix? left).bind fun found => ?_
        cases found with
        | some e => exact hclimb e least
        | none => exact respects_pure _
      · exact respects_pure _

theorem movesOn_climbWithin_succ (hoperand : MovesOn (operandWithin budget))
    (hclimb : ∀ left least, MovesOn (climbWithin budget left least))
    (htighten : ∀ op right, MovesOn (tightenWithin budget op right)) (left : Expr) (least : Nat) :
    MovesOn (climbWithin (budget + 1) left least) := by
  intro p
  rw [climbWithin_succ]
  exact respects_bind_at (movesOn_peekOperator? p) fun found q hop =>
    movesOn_climbFrom_at hoperand hclimb htighten left least hop

/-- Tightening on from what was found where an operator can stand. -/
def tightenFrom (budget : Nat) (op : BinaryOp) (right : Expr) :
    Option (BinaryOp × TokenStream) → Parse Expr
  | some (tighter, _) =>
    if tighter.precedence ≤ op.precedence then return right
    else do
      let right ← climbWithin budget right tighter.precedence
      tightenWithin budget op right
  | none => return right

theorem tightenWithin_succ (budget : Nat) (op : BinaryOp) (right : Expr) :
    tightenWithin (budget + 1) op right = peekOperator? >>= tightenFrom budget op right := rfl

theorem movesOn_tightenFrom (hclimb : ∀ left least, MovesOn (climbWithin budget left least))
    (htighten : ∀ op right, MovesOn (tightenWithin budget op right)) (op : BinaryOp)
    (right : Expr) (found : Option (BinaryOp × TokenStream)) :
    MovesOn (tightenFrom budget op right found) := by
  cases found with
  | some found =>
      obtain ⟨tighter, behind⟩ := found
      unfold tightenFrom
      dsimp only
      split
      · exact respects_pure _
      · exact (hclimb right tighter.precedence).bind fun right => htighten op right
  | none => exact respects_pure _

theorem movesOn_tightenWithin_succ (hclimb : ∀ left least, MovesOn (climbWithin budget left least))
    (htighten : ∀ op right, MovesOn (tightenWithin budget op right)) (op : BinaryOp)
    (right : Expr) : MovesOn (tightenWithin (budget + 1) op right) := by
  rw [tightenWithin_succ]
  exact movesOn_peekOperator?.bind (movesOn_tightenFrom hclimb htighten op right)

end Loops

/-- All the loops of an expression only take tokens, on whatever budget. -/
theorem movesOn_withinBudget (budget : Nat) :
    MovesOn (expressionWithin budget) ∧ MovesOn (operandWithin budget) ∧
      MovesOn (argumentsWithin budget) ∧
      (∀ left least, MovesOn (climbWithin budget left least)) ∧
      ∀ op right, MovesOn (tightenWithin budget op right) := by
  induction budget with
  | zero =>
      exact ⟨respects_throw _, respects_throw _, respects_throw _, fun _ _ => respects_throw _,
        fun _ _ => respects_throw _⟩
  | succ budget ih =>
      obtain ⟨hexpression, hoperand, harguments, hclimb, htighten⟩ := ih
      exact ⟨hoperand.bind fun left => hclimb left 0,
        movesOn_operandWithin_succ hexpression hoperand harguments,
        movesOn_argumentsWithin_succ hexpression harguments,
        movesOn_climbWithin_succ hoperand hclimb htighten,
        movesOn_tightenWithin_succ hclimb htighten⟩

theorem movesOn_expression : MovesOn expression :=
  (respects_get.bind fun _ => respects_pure _).bind fun budget => (movesOn_withinBudget budget).1

theorem movesOn_boundExpression (b : Bindings) : MovesOn (boundExpression b) :=
  movesOn_expression.bind fun _ => respects_pure _

theorem movesOn_optionalExpression (keyword : String) (b : Bindings) :
    MovesOn (optionalExpression keyword b) := by
  refine (movesOn_accept keyword).bind fun found => ?_
  cases found with
  | true => exact (movesOn_boundExpression b).bind fun _ => respects_pure _
  | false => exact respects_pure _

/-! ## Clauses of a SELECT -/

theorem movesOn_collation : MovesOn collation := movesOn_expectOne _

theorem movesOn_direction : MovesOn direction :=
  (movesOn_acceptOne? _).bind fun _ => respects_pure _

theorem movesOn_indexedColumn : MovesOn indexedColumn := by
  refine movesOn_expectName.bind fun name => (movesOn_accept "COLLATE").bind fun found => ?_
  cases found with
  | true =>
      exact movesOn_collation.bind fun _ => movesOn_direction.bind fun _ => respects_pure _
  | false => exact movesOn_direction.bind fun _ => respects_pure _

theorem movesOn_indexedColumns : MovesOn indexedColumns :=
  (movesOn_expect "(").bind fun _ => (movesOn_commaSeparated movesOn_indexedColumn).bind fun _ =>
    (movesOn_expect ")").bind fun _ => respects_pure _

end OnePassSql.Parse

namespace OnePassSql.Select

open Step Parse

theorem movesOn_compound? : MovesOn compound? := by
  refine (movesOn_acceptOne? _).bind fun found => ?_
  split
  · exact (movesOn_accept "ALL").bind fun _ => respects_pure _
  · exact respects_pure _

theorem movesOn_resultColumns (b : Bindings) : MovesOn (resultColumns b) := by
  refine (movesOn_accept "*").bind fun star => ?_
  cases star with
  | true => exact respects_pure _
  | false =>
      exact (movesOn_commaSeparated (movesOn_boundExpression b)).bind fun _ => respects_pure _

theorem movesOn_grouping : MovesOn grouping := by
  refine (movesOn_accept "GROUP").bind fun found => ?_
  cases found with
  | false => exact respects_pure _
  | true =>
      refine (movesOn_expect "BY").bind fun _ =>
        (movesOn_commaSeparated movesOn_expression).bind fun _ =>
          (movesOn_accept "HAVING").bind fun having => ?_
      cases having with
      | true => exact movesOn_expression.bind fun _ => respects_pure _
      | false => exact respects_pure _

theorem movesOn_ordering : MovesOn ordering := by
  refine (movesOn_accept "ORDER").bind fun found => ?_
  cases found with
  | false => exact respects_pure _
  | true =>
      have hterm : MovesOn orderingTerm := movesOn_expression.bind fun _ => movesOn_direction
      exact (movesOn_expect "BY").bind fun _ =>
        (movesOn_commaSeparated hterm).bind fun _ => respects_pure _

theorem movesOn_limit : MovesOn limit := by
  refine (movesOn_accept "LIMIT").bind fun found => ?_
  cases found with
  | false => exact respects_pure _
  | true =>
      refine movesOn_expectNumber.bind fun _ => (movesOn_acceptOne? _).bind fun more => ?_
      split
      · exact movesOn_expectNumber.bind fun _ => respects_pure _
      · exact respects_pure _

theorem ordering_of_not {p q : Parser} (h : accept "ORDER" p = .ok false q) :
    ordering p = .ok ⟨⟩ q := by
  rw [ordering, bind_apply_ok h]
  rfl

theorem limit_of_not {p q : Parser} (h : accept "LIMIT" p = .ok false q) :
    limit p = .ok ⟨⟩ q := by
  rw [limit, bind_apply_ok h]
  rfl

theorem movesOn_joinStart? : MovesOn joinStart? := movesOn_acceptOne? _

theorem movesOn_joinCondition : MovesOn joinCondition := by
  refine (movesOn_accept "ON").bind fun on => ?_
  cases on with
  | true => exact movesOn_expression.bind fun _ => respects_pure _
  | false =>
      refine (movesOn_accept "USING").bind fun found => ?_
      cases found with
      | true => exact movesOn_indexedColumns.bind fun _ => respects_pure _
      | false => exact respects_pure _

end OnePassSql.Select

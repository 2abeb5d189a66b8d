import OnePassSql.Proofs.Parser.PushingBack

/-!
Expressions read from a lexer. Precedence climbing takes an operator to see what it is, and goes
back to the checkpoint before it if the operator belongs to a level further out. On the tokens that
the lexer is going to hand out that is what the parser on a stream does, with the same result or
fault and the same tokens left.
-/

namespace OnePassSql

open Step

namespace Scan

open Parse (parameterIndex?)
open TokenStream (depthBehind? enclosed?_token enclosed?_token_eq_some)

variable {α : Type}

/-! ## Expressions -/

/-- Moves the cursor to the index that digits directly behind the question mark name. -/
def placeCursor (question : Token) : Scan Unit := do
  match ← next with
  | none => pushBack
  | some t =>
    if t.kind = .number ∧ t.position = question.position + 1 then
      match parameterIndex? t.text with
      | some n => modify fun s => { s with cursor := n }
      | none => throw (.parse .parameterOutOfRange t.position)
    else pushBack

/-- The parameter behind a question mark: the one at the cursor, which moves on by one. -/
def parameter (question : Token) : Scan Expr := do
  placeCursor question
  let index := (← get).cursor
  if index + 1 < UInt64.size then
    modify fun s => { s with cursor := index + 1 }
    return .parameter index
  else throw (.parse .parameterOutOfRange question.position)

/-- The texts of the tokens up to the parenthesis that closes the `depth`-th one open, which is
taken as well. -/
def textsWithin : Nat → Nat → Scan (List String)
  | 0, _ => throw .exhausted
  | budget + 1, depth => do
    let t ← expectToken
    match depthBehind? depth t with
    | none => return []
    | some depth =>
      let texts ← textsWithin budget depth
      return t.text :: texts

/-- The parenthesized list of a membership test, as the texts of its tokens. -/
def membershipList : Scan String := do
  expect "("
  let texts ← textsWithin ((← get).lexer.stream.length + 1) 1
  return " ".intercalate texts

/-- Reads `NOT NULL`, `NOTNULL`, `ISNULL` or `[NOT] IN (...)` behind an operand. -/
def suffix? (operand : Expr) : Scan (Option Expr) := do
  match ← oneOf [("NOT", Parse.Suffix.negated), ("NOTNULL", .notNull), ("ISNULL", .isNull),
    ("IN", .membership)] true with
  | none => return none
  | some .notNull => return some (.unary .notNull operand)
  | some .isNull => return some (.unary .isNull operand)
  | some .membership =>
    let list ← membershipList
    return some (.membership operand list false)
  | some .negated =>
    match ← oneOf [("NULL", true), ("IN", false)] false with
    | some true => return some (.unary .notNull operand)
    | _ =>
      let list ← membershipList
      return some (.membership operand list true)

/-- What a token that stands alone means as an operand. -/
def atom (t : Token) (start : Nat) : Scan Expr :=
  match t.kind with
  | .number =>
    match integerOfText? t.text with
    | some n => return .literal (.integer n)
    | none => throw (.parse .numberOutOfRange t.position)
  | .string => return .literal (.text t.unquoted)
  | .word => return .column t.text
  | .quotedName => return .column t.unquoted
  | .symbol => refuse ["Expression"] start

/-- Reads a form with the suffix forms on or off, and sets them back as they were, also after a
fault. -/
def withSuffixes (on : Bool) (form : Scan α) : Scan α := fun s =>
  match form { s with suffixes := on } with
  | .ok a t => .ok a { t with suffixes := s.suffixes }
  | .error e t => .error e { t with suffixes := s.suffixes }

mutual

/-- An operand and the operators behind it. -/
def expressionWithin : Nat → Scan Expr
  | 0 => throw .exhausted
  | budget + 1 => do
    let left ← operandWithin budget
    climbWithin budget left 0

/-- An operand: an atom, a call, a parenthesized expression, or a sign with what it applies to. -/
def operandWithin : Nat → Scan Expr
  | 0 => throw .exhausted
  | budget + 1 => do
    let start ← position
    let t ← expectToken
    if t.is "COALESCE" then
      expect "("
      let arguments ← argumentsWithin budget
      expect ")"
      return .call "COALESCE" arguments
    else if t.is "NULL" then return .literal .null
    else if t.is "NOT" then
      let operand ← operandWithin budget
      return .unary .not operand
    else if t.is "(" then
      let e ← withSuffixes true (expressionWithin budget)
      expect ")"
      return e
    else if t.is "?" then parameter t
    else if t.is "-" then
      match ← leastInteger? t with
      | some e => return e
      | none =>
        let operand ← expressionWithin budget
        return .unary .negate operand
    else atom t start

/-- Expressions with commas between them. -/
def argumentsWithin : Nat → Scan (List Expr)
  | 0 => throw .exhausted
  | budget + 1 => do
    let e ← expressionWithin budget
    if ← accept "," then
      let rest ← argumentsWithin budget
      return e :: rest
    else return [e]

/-- Extends an operand by the operators that bind at least as tightly as `least`, and by the forms
that stand behind it. An operator that binds less tightly is put back. -/
def climbWithin : Nat → Expr → Nat → Scan Expr
  | 0, _, _ => throw .exhausted
  | budget + 1, left, least => do
    match ← operator? with
    | some (op, mark) =>
      if op.precedence < least then
        restore mark
        return left
      else
        let operand ← operandWithin budget
        let right ← tightenWithin budget op operand
        climbWithin budget (.binary op left right) least
    | none =>
      if (← get).suffixes then
        match ← suffix? left with
        | some e => climbWithin budget e least
        | none => return left
      else return left

/-- Extends a right operand while the operator behind it binds more tightly than `op`. The operator
is put back in any case. -/
def tightenWithin : Nat → BinaryOp → Expr → Scan Expr
  | 0, _, _ => throw .exhausted
  | budget + 1, op, right => do
    match ← operator? with
    | some (tighter, mark) =>
      restore mark
      if tighter.precedence ≤ op.precedence then return right
      else
        let right ← climbWithin budget right tighter.precedence
        tightenWithin budget op right
    | none => return right

end

/-- A step budget that no expression on the tokens left uses up. -/
def budget : Scan Nat := return 4 * (← get).lexer.stream.length + 4

/-- Reads an expression. -/
def expression : Scan Expr := do
  expressionWithin (← budget)

/-- Reads an expression up to the first form that stands behind an operand. -/
def constantExpression : Scan Expr :=
  withSuffixes false expression

/-- Reads an operand. -/
def operand : Scan Expr := do
  operandWithin (← budget)

/-! ## Performing the steps on a stream -/

section

variable {s : Scanner}

theorem performs_placeCursor (question : Token) :
    Performs (placeCursor question) (Parse.placeCursor question) := by
  intro s hs
  refine endsAs_next_bind hs (fun t rest h => ?_) fun n h => endsAs_pushBack_done _ h
  dsimp only
  split
  · rw [bind_apply_ok (Parse.skip_of_token (p := s.parser) h)]
    cases parameterIndex? t.text with
    | some n => exact .ok _ (Lexer.settled_of_ahead _ _) rfl
    | none => exact .error _ (Lexer.settled_of_ahead _ _) rfl
  · exact endsAs_pushBack _ h

theorem performs_parameter (question : Token) :
    Performs (parameter question) (Parse.parameter question) := by
  intro s hs
  refine (performs_placeCursor question hs).bind fun _ t _ ht => ?_
  rw [bind_apply_ok (get_apply t), bind_apply_ok (get_apply t.parser)]
  by_cases hcursor : t.cursor + 1 < UInt64.size
  · rw [if_pos hcursor, if_pos (c := t.parser.cursor + 1 < UInt64.size) hcursor]
    exact .ok _ ht rfl
  · rw [if_neg hcursor, if_neg (c := t.parser.cursor + 1 < UInt64.size) hcursor]
    exact .error _ ht rfl

theorem performs_atom (t : Token) (start : Nat) : Performs (atom t start) (Parse.atom t start) := by
  unfold atom Parse.atom
  cases t.kind with
  | number =>
      cases integerOfText? t.text with
      | some n => exact performs_pure _
      | none => exact performs_throw _
  | string => exact performs_pure _
  | word => exact performs_pure _
  | quotedName => exact performs_pure _
  | symbol => exact performs_throw _

theorem performs_withSuffixes {form : Scan α} {form' : Parse α} (h : Performs form form')
    (on : Bool) : Performs (withSuffixes on form) (Parse.withSuffixes on form') := by
  intro s hs
  have hform : EndsAs (form { s with suffixes := on }) (form' { s.parser with suffixes := on }) :=
    h hs
  unfold withSuffixes Parse.withSuffixes
  generalize form { s with suffixes := on } = result at hform
  generalize form' { s.parser with suffixes := on } = result' at hform
  cases hform with
  | ok a ht hparser =>
      subst hparser
      exact .ok a ht rfl
  | error e ht hparser =>
      subst hparser
      exact .error e ht rfl

theorem expectToken_of_token (hs : s.Settled) {t : Token} {rest : TokenStream}
    (h : s.lexer.stream = .token t rest) :
    expectToken s = .ok t ⟨⟨rest, some t, false⟩, s.cursor, s.suffixes⟩ := by
  rw [expectToken, bind_apply_ok (position_apply s), bind_apply_ok (next_of_token hs h)]
  rfl

/-- The list up to the parenthesis that closes it is read token by token. -/
theorem textsWithin_of_closed {budget depth : Nat} (hs : s.Settled)
    (hbudget : s.lexer.stream.length < budget) {tokens : List Token} {rest : TokenStream}
    (h : s.lexer.stream.enclosed? depth = some (tokens, rest)) :
    ∃ l : Lexer, l.Settled ∧ l.stream = rest ∧
      textsWithin budget depth s = .ok (tokens.map Token.text) ⟨l, s.cursor, s.suffixes⟩ := by
  induction budget generalizing s depth tokens with
  | zero => omega
  | succ budget ih =>
      cases hstream : s.lexer.stream with
      | done n => rw [hstream] at h; cases h
      | fault ch n => rw [hstream] at h; cases h
      | token t behind =>
          rw [hstream] at h hbudget
          rw [TokenStream.length] at hbudget
          unfold textsWithin
          rw [bind_apply_ok (expectToken_of_token hs hstream)]
          rcases enclosed?_token_eq_some h with
            ⟨hnone, rfl, rfl⟩ | ⟨depth', tokens', hsome, rfl, hinside⟩
          · rw [hnone]
            exact ⟨_, Lexer.settled_of_ahead _ _, rfl, rfl⟩
          · have hbehind : Scanner.Settled ⟨⟨behind, some t, false⟩, s.cursor, s.suffixes⟩ :=
              Lexer.settled_of_ahead _ _
            obtain ⟨l, hl, hrest, htexts⟩ := ih hbehind (Nat.lt_of_succ_lt_succ hbudget) hinside
            rw [hsome]
            refine ⟨l, hl, hrest, ?_⟩
            dsimp only
            rw [bind_apply_ok htexts]
            rfl

/-- Where the tokens have ended, a token is refused. -/
theorem exists_refusal (hs : s.Settled) (h : s.lexer.stream.ending = s.lexer.stream) :
    ∃ e t, t.Settled ∧ expectToken s = .error e t ∧
      Parse.expectToken s.parser = .error e t.parser := by
  have hends := performs_expectToken hs
  generalize hx : expectToken s = result at hends
  generalize hy : Parse.expectToken s.parser = result' at hends
  cases hends with
  | ok t _ _ =>
      obtain ⟨rest, hahead, -⟩ := Parse.expectToken_eq_ok hy
      exact absurd (h.trans hahead) (TokenStream.ending_ne_token _ t rest)
  | error e ht hparser => exact ⟨e, _, ht, rfl, by rw [hparser]⟩

/-- A list that is not closed is read up to where the tokens end, and refused there. -/
theorem textsWithin_of_unclosed {budget depth : Nat} (hs : s.Settled)
    (hbudget : s.lexer.stream.length < budget) (h : s.lexer.stream.enclosed? depth = none) :
    ∃ e t, t.Settled ∧ textsWithin budget depth s = .error e t ∧
      Parse.expectToken ⟨s.lexer.stream.ending, s.cursor, s.suffixes⟩ = .error e t.parser := by
  induction budget generalizing s depth with
  | zero => omega
  | succ budget ih =>
      have hended (hend : s.lexer.stream.ending = s.lexer.stream) :
          ∃ e t, t.Settled ∧ textsWithin (budget + 1) depth s = .error e t ∧
            Parse.expectToken ⟨s.lexer.stream.ending, s.cursor, s.suffixes⟩
              = .error e t.parser := by
        obtain ⟨e, t, ht, hrefused, hparse⟩ := exists_refusal hs hend
        exact ⟨e, t, ht, bind_eq_error.mpr (.inl hrefused), by rw [hend]; exact hparse⟩
      cases hstream : s.lexer.stream with
      | done n => exact hstream ▸ hended (by rw [hstream]; rfl)
      | fault ch n => exact hstream ▸ hended (by rw [hstream]; rfl)
      | token t behind =>
          rw [hstream, enclosed?_token] at h
          rw [hstream, TokenStream.length] at hbudget
          unfold textsWithin
          rw [bind_apply_ok (expectToken_of_token hs hstream)]
          cases hdepth : depthBehind? depth t with
          | none =>
              rw [hdepth] at h
              cases h
          | some depth' =>
              rw [hdepth] at h
              have hbehind : Scanner.Settled ⟨⟨behind, some t, false⟩, s.cursor, s.suffixes⟩ :=
                Lexer.settled_of_ahead _ _
              obtain ⟨e, u, hu, htexts, hrefused⟩ := ih hbehind (Nat.lt_of_succ_lt_succ hbudget)
                (Option.map_eq_none_iff.mp h)
              exact ⟨e, u, hu, bind_eq_error.mpr (.inl htexts), hrefused⟩

theorem performs_membershipList : Performs membershipList Parse.membershipList := by
  refine (performs_expect "(").bind fun _ s hs => ?_
  rw [bind_apply_ok (get_apply s), bind_apply_ok (get_apply s.parser)]
  cases h : s.parser.ahead.enclosed? 1 with
  | some found =>
      obtain ⟨tokens, rest⟩ := found
      obtain ⟨l, hl, rfl, htexts⟩ := textsWithin_of_closed hs (Nat.lt_succ_self _) h
      rw [bind_apply_ok htexts]
      exact .ok _ hl rfl
  | none =>
      obtain ⟨e, t, ht, htexts, hrefused⟩ := textsWithin_of_unclosed hs (Nat.lt_succ_self _) h
      rw [bind_eq_error.mpr (.inl htexts)]
      dsimp only
      have hresume : Parse.resume s.parser.ahead.ending s.parser
          = .ok ⟨⟩ ⟨s.lexer.stream.ending, s.cursor, s.suffixes⟩ := rfl
      rw [bind_apply_ok hresume, bind_eq_error.mpr (.inl hrefused)]
      exact .error e ht rfl

theorem performs_suffix? (operand : Expr) : Performs (suffix? operand) (Parse.suffix? operand) := by
  refine (performs_oneOf _).bind fun form => ?_
  cases form with
  | none => exact performs_pure _
  | some form =>
      cases form with
      | notNull => exact performs_pure _
      | isNull => exact performs_pure _
      | membership => exact performs_membershipList.bind fun _ => performs_pure _
      | negated =>
          refine performs_oneOf_bind fun isNull => ?_
          cases isNull with
          | true => exact performs_pure _
          | false => exact performs_membershipList.bind fun _ => performs_pure _

/-- On every step budget the expressions are read as on a stream. -/
structure PerformsWithin (budget : Nat) : Prop where
  expression : Performs (expressionWithin budget) (Parse.expressionWithin budget)
  operand : Performs (operandWithin budget) (Parse.operandWithin budget)
  arguments : Performs (argumentsWithin budget) (Parse.argumentsWithin budget)
  climb (left : Expr) (least : Nat) :
    Performs (climbWithin budget left least) (Parse.climbWithin budget left least)
  tighten (op : BinaryOp) (right : Expr) :
    Performs (tightenWithin budget op right) (Parse.tightenWithin budget op right)

variable {budget : Nat}

theorem performs_operandWithin (h : PerformsWithin budget) :
    Performs (operandWithin (budget + 1)) (Parse.operandWithin (budget + 1)) := by
  unfold operandWithin Parse.operandWithin
  refine performs_position.bind fun start => performs_expectToken.bind fun t => ?_
  split
  · exact (performs_expect "(").bind fun _ => h.arguments.bind fun _ =>
      (performs_expect ")").bind fun _ => performs_pure _
  split
  · exact performs_pure _
  split
  · exact h.operand.bind fun _ => performs_pure _
  split
  · exact (performs_withSuffixes h.expression true).bind fun _ =>
      (performs_expect ")").bind fun _ => performs_pure _
  split
  · exact performs_parameter t
  split
  · refine (performs_leastInteger? t).bind fun found => ?_
    cases found with
    | some e => exact performs_pure e
    | none => exact h.expression.bind fun _ => performs_pure _
  · exact performs_atom t start

theorem performs_argumentsWithin (h : PerformsWithin budget) :
    Performs (argumentsWithin (budget + 1)) (Parse.argumentsWithin (budget + 1)) := by
  unfold argumentsWithin Parse.argumentsWithin
  refine h.expression.bind fun e => (performs_accept ",").bind fun more => ?_
  cases more with
  | true => exact h.arguments.bind fun _ => performs_pure _
  | false => exact performs_pure _

theorem performs_climbWithin (h : PerformsWithin budget) (left : Expr) (least : Nat) :
    Performs (climbWithin (budget + 1) left least)
      (Parse.climbWithin (budget + 1) left least) := by
  unfold climbWithin Parse.climbWithin
  intro s hs
  refine endsAs_operator_bind hs ?_ fun op l hl => ?_
  · dsimp only
    rw [bind_apply_ok (get_apply s), bind_apply_ok (get_apply s.parser)]
    by_cases hsuffixes : s.suffixes = true
    · rw [if_pos hsuffixes, if_pos (c := s.parser.suffixes = true) hsuffixes]
      refine (performs_suffix? left hs).bind fun found t _ ht => ?_
      cases found with
      | some e => exact h.climb e least ht
      | none => exact .ok _ ht rfl
    · rw [if_neg hsuffixes, if_neg (c := s.parser.suffixes = true) hsuffixes]
      exact .ok _ hs rfl
  · dsimp only
    split
    -- going back to the mark is going back to where looking left the stream
    · exact .ok _ hs rfl
    · exact (h.operand.bind fun operand => (h.tighten op operand).bind fun right =>
        h.climb (.binary op left right) least) hl

theorem performs_tightenWithin (h : PerformsWithin budget) (op : BinaryOp) (right : Expr) :
    Performs (tightenWithin (budget + 1) op right)
      (Parse.tightenWithin (budget + 1) op right) := by
  unfold tightenWithin Parse.tightenWithin
  intro s hs
  refine endsAs_operator_bind hs (.ok _ hs rfl) fun tighter l hl => ?_
  dsimp only
  rw [bind_apply_ok (restore_apply s.lexer _)]
  split
  · exact .ok _ hs rfl
  · exact ((h.climb right _).bind fun right => h.tighten op right) hs

theorem performsWithin (budget : Nat) : PerformsWithin budget := by
  induction budget with
  | zero =>
      have hthrow {β : Type} : Performs (throw .exhausted : Scan β) (throw .exhausted) :=
        performs_throw _
      exact ⟨hthrow, hthrow, hthrow, fun _ _ => hthrow, fun _ _ => hthrow⟩
  | succ budget ih =>
      exact ⟨ih.operand.bind fun left => ih.climb left 0, performs_operandWithin ih,
        performs_argumentsWithin ih, performs_climbWithin ih, performs_tightenWithin ih⟩

theorem performs_budget : Performs Scan.budget Parse.budget := fun _ hs => .ok _ hs rfl

theorem performs_expression : Performs expression Parse.expression :=
  performs_budget.bind fun budget => (performsWithin budget).expression

theorem performs_constantExpression : Performs constantExpression Parse.constantExpression :=
  performs_withSuffixes performs_expression false

theorem performs_operand : Performs operand Parse.operand :=
  performs_budget.bind fun budget => (performsWithin budget).operand

end

end Scan

end OnePassSql

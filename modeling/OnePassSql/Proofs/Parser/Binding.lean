import OnePassSql.Proofs.Parser.Clauses

/-!
What is bound to the parameters does not steer the parser. To read an expression and then to put the
values into it is the same as to put each one in where its question mark is read, so for all values
there is one tree with places for them, or one fault; and the places of that tree are question marks
of the text, numbered by the text alone.
-/

namespace OnePassSql

open Step

/-! ## Values put in on the way -/

namespace Parse

/-- The value behind a question mark: that of the parameter at the cursor, which moves on by one. -/
def boundParameter (b : Bindings) (question : Token) : Parse Expr := do
  placeCursor question
  let index := (← get).cursor
  let v := b.valueAt index
  if index + 1 < UInt64.size then
    modify fun p => { p with cursor := index + 1 }
    return .literal v
  else throw (.parse .parameterOutOfRange question.position)

mutual

/-- An operand and the operators behind it, with the values in it. -/
def boundExpressionWithin (b : Bindings) : Nat → Parse Expr
  | 0 => throw .exhausted
  | budget + 1 => do
    let left ← boundOperandWithin b budget
    boundClimbWithin b budget left 0

/-- An operand with the values in it. -/
def boundOperandWithin (b : Bindings) : Nat → Parse Expr
  | 0 => throw .exhausted
  | budget + 1 => do
    let start ← position
    let t ← expectToken
    if t.is "COALESCE" then
      expect "("
      let arguments ← boundArgumentsWithin b budget
      expect ")"
      return .call "COALESCE" arguments
    else if t.is "NULL" then return .literal .null
    else if t.is "NOT" then
      let operand ← boundOperandWithin b budget
      return .unary .not operand
    else if t.is "(" then
      let e ← withSuffixes true (boundExpressionWithin b budget)
      expect ")"
      return e
    else if t.is "?" then boundParameter b t
    else if t.is "-" then
      match ← leastInteger? t with
      | some e => return e
      | none =>
        let operand ← boundExpressionWithin b budget
        return .unary .negate operand
    else atom t start

/-- Expressions with commas between them, with the values in them. -/
def boundArgumentsWithin (b : Bindings) : Nat → Parse (List Expr)
  | 0 => throw .exhausted
  | budget + 1 => do
    let e ← boundExpressionWithin b budget
    if ← accept "," then
      let rest ← boundArgumentsWithin b budget
      return e :: rest
    else return [e]

/-- Extends an operand that has its values, by operators and by the forms that stand behind it. -/
def boundClimbWithin (b : Bindings) : Nat → Expr → Nat → Parse Expr
  | 0, _, _ => throw .exhausted
  | budget + 1, left, least => do
    match ← peekOperator? with
    | some (op, behind) =>
      if op.precedence < least then return left
      else
        resume behind
        let operand ← boundOperandWithin b budget
        let right ← boundTightenWithin b budget op operand
        boundClimbWithin b budget (.binary op left right) least
    | none =>
      if (← get).suffixes then
        match ← suffix? left with
        | some e => boundClimbWithin b budget e least
        | none => return left
      else return left

/-- Extends a right operand that has its values. -/
def boundTightenWithin (b : Bindings) : Nat → BinaryOp → Expr → Parse Expr
  | 0, _, _ => throw .exhausted
  | budget + 1, op, right => do
    match ← peekOperator? with
    | some (tighter, _) =>
      if tighter.precedence ≤ op.precedence then return right
      else
        let right ← boundClimbWithin b budget right tighter.precedence
        boundTightenWithin b budget op right
    | none => return right

end

/-- The expression that is read, with the values put in where their question marks are read. -/
def boundOnTheWay (b : Bindings) : Parse Expr := do
  boundExpressionWithin b (← budget)

section

variable {α β γ δ : Type} {f : α → β} {k : γ → δ} {x : Parse α} {y : Parse β} {g : α → Parse γ}

theorem bind_eq_map {g' : α → Parse δ} (hg : ∀ a, g' a = k <$> g a) :
    x >>= g' = k <$> (x >>= g) := by
  rw [map_bind]
  exact congrArg (x >>= ·) (funext hg)

theorem bind_eq_map_of_eq_map {g' : β → Parse δ} (hx : y = f <$> x)
    (hg : ∀ a, g' (f a) = k <$> g a) : y >>= g' = k <$> (x >>= g) := by
  rw [hx, bind_map_left]
  exact bind_eq_map hg

theorem withSuffixes_map (on : Bool) : withSuffixes on (f <$> x) = f <$> withSuffixes on x := by
  funext p
  change withSuffixes on (EStateM.map f x) p = EStateM.map f (withSuffixes on x) p
  unfold withSuffixes EStateM.map
  dsimp only
  cases x { p with suffixes := on } <;> rfl

end

variable (b : Bindings)

theorem boundParameter_eq (question : Token) :
    boundParameter b question = Expr.bind b <$> parameter question := by
  unfold boundParameter parameter
  refine bind_eq_map fun _ => bind_eq_map fun p => ?_
  dsimp only
  split
  · exact bind_eq_map fun _ => rfl
  · rfl

theorem suffix?_bind (operand : Expr) :
    suffix? (operand.bind b) = Option.map (Expr.bind b) <$> suffix? operand := by
  refine bind_eq_map fun found => ?_
  cases found with
  | none => rfl
  | some form =>
      cases form with
      | notNull => rfl
      | isNull => rfl
      | membership => exact bind_eq_map fun _ => rfl
      | negated =>
          refine bind_eq_map fun isNull => ?_
          cases isNull with
          | true => rfl
          | false => exact bind_eq_map fun _ => rfl

/-! ### The loops -/

/-- An atom has no place for a value. -/
theorem atom_bind (t : Token) (start : Nat) : atom t start = Expr.bind b <$> atom t start := by
  unfold atom
  split
  · split
    · rfl
    · rfl
  · rfl
  · rfl
  · rfl
  · rfl

theorem leastInteger?_bind (minus : Token) :
    leastInteger? minus = Option.map (Expr.bind b) <$> leastInteger? minus := by
  refine bind_eq_map fun t => ?_
  cases t with
  | none => rfl
  | some t =>
      dsimp only
      split
      · refine bind_eq_map fun p => bind_eq_map fun _ => bind_eq_map fun found => ?_
        cases found with
        | none => rfl
        | some found => exact bind_eq_map fun _ => rfl
      · rfl

section Loops

variable {b} {budget : Nat}

theorem boundOperandWithin_succ
    (hexpression : boundExpressionWithin b budget = Expr.bind b <$> expressionWithin budget)
    (hoperand : boundOperandWithin b budget = Expr.bind b <$> operandWithin budget)
    (harguments : boundArgumentsWithin b budget
      = List.map (Expr.bind b) <$> argumentsWithin budget) :
    boundOperandWithin b (budget + 1) = Expr.bind b <$> operandWithin (budget + 1) := by
  rw [operandWithin_succ]
  refine bind_eq_map fun start => bind_eq_map fun t => ?_
  unfold operandFrom
  split
  · refine bind_eq_map fun _ => bind_eq_map_of_eq_map harguments fun arguments =>
      bind_eq_map fun _ => ?_
    rw [← Expr.bindAll_eq_map]
    rfl
  split
  · rfl
  split
  · exact bind_eq_map_of_eq_map hoperand fun _ => rfl
  split
  · have henclosed : withSuffixes true (boundExpressionWithin b budget)
        = Expr.bind b <$> withSuffixes true (expressionWithin budget) := by
      rw [hexpression, withSuffixes_map]
    exact bind_eq_map_of_eq_map henclosed fun _ => bind_eq_map fun _ => rfl
  split
  · exact boundParameter_eq b t
  split
  · refine bind_eq_map_of_eq_map (leastInteger?_bind b t) fun found => ?_
    cases found with
    | some e => rfl
    | none => exact bind_eq_map_of_eq_map hexpression fun _ => rfl
  · exact atom_bind b t start

theorem boundArgumentsWithin_succ
    (hexpression : boundExpressionWithin b budget = Expr.bind b <$> expressionWithin budget)
    (harguments : boundArgumentsWithin b budget
      = List.map (Expr.bind b) <$> argumentsWithin budget) :
    boundArgumentsWithin b (budget + 1)
      = List.map (Expr.bind b) <$> argumentsWithin (budget + 1) := by
  refine bind_eq_map_of_eq_map hexpression fun e => bind_eq_map fun more => ?_
  cases more with
  | true => exact bind_eq_map_of_eq_map harguments fun _ => rfl
  | false => rfl

theorem boundClimbWithin_succ
    (hoperand : boundOperandWithin b budget = Expr.bind b <$> operandWithin budget)
    (hclimb : ∀ left least, boundClimbWithin b budget (left.bind b) least
      = Expr.bind b <$> climbWithin budget left least)
    (htighten : ∀ op right, boundTightenWithin b budget op (right.bind b)
      = Expr.bind b <$> tightenWithin budget op right) (left : Expr) (least : Nat) :
    boundClimbWithin b (budget + 1) (left.bind b) least
      = Expr.bind b <$> climbWithin (budget + 1) left least := by
  rw [climbWithin_succ]
  refine bind_eq_map fun found => ?_
  cases found with
  | some found =>
      obtain ⟨op, behind⟩ := found
      unfold climbFrom
      dsimp only
      split
      · rfl
      · exact bind_eq_map fun _ => bind_eq_map_of_eq_map hoperand fun operand =>
          bind_eq_map_of_eq_map (htighten op operand) fun right =>
            hclimb (.binary op left right) least
  | none =>
      refine bind_eq_map fun p => ?_
      split
      · refine bind_eq_map_of_eq_map (suffix?_bind b left) fun found => ?_
        cases found with
        | some e => exact hclimb e least
        | none => rfl
      · rfl

theorem boundTightenWithin_succ
    (hclimb : ∀ left least, boundClimbWithin b budget (left.bind b) least
      = Expr.bind b <$> climbWithin budget left least)
    (htighten : ∀ op right, boundTightenWithin b budget op (right.bind b)
      = Expr.bind b <$> tightenWithin budget op right) (op : BinaryOp) (right : Expr) :
    boundTightenWithin b (budget + 1) op (right.bind b)
      = Expr.bind b <$> tightenWithin (budget + 1) op right := by
  rw [tightenWithin_succ]
  refine bind_eq_map fun found => ?_
  cases found with
  | some found =>
      obtain ⟨tighter, behind⟩ := found
      unfold tightenFrom
      dsimp only
      split
      · rfl
      · exact bind_eq_map_of_eq_map (hclimb right tighter.precedence) fun right => htighten op right
  | none => rfl

end Loops

/-- On whatever budget, every loop gives with values put in on the way what it gives with them put
in at the end. -/
theorem bound_eq_withinBudget (budget : Nat) :
    boundExpressionWithin b budget = Expr.bind b <$> expressionWithin budget ∧
      boundOperandWithin b budget = Expr.bind b <$> operandWithin budget ∧
      boundArgumentsWithin b budget = List.map (Expr.bind b) <$> argumentsWithin budget ∧
      (∀ left least, boundClimbWithin b budget (left.bind b) least
        = Expr.bind b <$> climbWithin budget left least) ∧
      ∀ op right, boundTightenWithin b budget op (right.bind b)
        = Expr.bind b <$> tightenWithin budget op right := by
  induction budget with
  | zero => exact ⟨rfl, rfl, rfl, fun _ _ => rfl, fun _ _ => rfl⟩
  | succ budget ih =>
      obtain ⟨hexpression, hoperand, harguments, hclimb, htighten⟩ := ih
      exact ⟨bind_eq_map_of_eq_map hoperand fun left => hclimb left 0,
        boundOperandWithin_succ hexpression hoperand harguments,
        boundArgumentsWithin_succ hexpression harguments,
        boundClimbWithin_succ hoperand hclimb htighten,
        boundTightenWithin_succ hclimb htighten⟩

/-- To put the values in on the way or at the end is the same. -/
theorem boundExpression_eq_onTheWay : boundExpression b = boundOnTheWay b := by
  have hread : boundOnTheWay b = Expr.bind b <$> expression :=
    bind_eq_map fun budget => (bound_eq_withinBudget b budget).1
  rw [hread, map_eq_pure_bind]
  rfl

end Parse

end OnePassSql

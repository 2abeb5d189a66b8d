import OnePassSql.Proofs.Alike.Operands

/-!
Expressions are read alike from tokens that go abreast. What stands behind the place up to which
they do is neither an operator nor a form that goes on with an operand.
-/

namespace OnePassSql.Parse

open Step TokenStream

variable {u v : TokenStream}

section Loops

variable {b : Nat}

theorem follows_operandFrom (h : Tails u v) (hexpression : ActsAlike u v (expressionWithin b))
    (hoperand : ActsAlike u v (operandWithin b)) (harguments : ActsAlike u v (argumentsWithin b))
    (start start' : Nat) {t t' : Token} {p q : Parser} (htext : t.SameText t')
    (hadjoins : p.ahead.Adjoins t ↔ q.ahead.Adjoins t') (hs : p.Abreast u v q) :
    Follows (Parser.comparison u v) Eq (operandFrom b start t p) (operandFrom b start' t' q) := by
  unfold operandFrom
  simp only [← htext.is_eq]
  split
  · exact ((actsAlike_expect h (by decide)).bind fun _ => harguments.bind fun _ =>
      (actsAlike_expect h (by decide)).bind fun _ => runsAlike_pure rfl).follows hs
  split
  · exact follows_pure hs rfl
  split
  · exact (hoperand.bind fun _ => runsAlike_pure rfl).follows hs
  split
  · exact ((actsAlike_withSuffixes hexpression true).bind fun _ =>
      (actsAlike_expect h (by decide)).bind fun _ => runsAlike_pure rfl).follows hs
  split
  next hquestion => exact follows_parameter h htext hquestion hadjoins hs
  split
  next hminus =>
    have hthen : ∀ found, ActsAlike u v (match found with
        | some e => return e
        | none => do
          let operand ← expressionWithin b
          return .unary .negate operand : Parse Expr) := by
      intro found
      cases found with
      | some e => exact runsAlike_pure rfl
      | none => exact hexpression.bind fun _ => runsAlike_pure rfl
    refine follows_bind_at hs (movesOn_leastInteger? t p)
      (follows_leastInteger? h htext hminus hadjoins hs) (fun found r _ => (hthen found).moves r) ?_
    rintro found r _ r' _ _ rfl hr
    exact (hthen found).follows hr
  · exact (runsAlike_atom htext start start').follows hs

theorem actsAlike_operandWithin_succ (h : Tails u v)
    (hexpression : ActsAlike u v (expressionWithin b))
    (hoperand : ActsAlike u v (operandWithin b)) (harguments : ActsAlike u v (argumentsWithin b)) :
    ActsAlike u v (operandWithin (b + 1)) := by
  rw [operandWithin_succ]
  have hmoves : ∀ start t, MovesOn (operandFrom b start t) :=
    movesOn_operandFrom hexpression.moves hoperand.moves harguments.moves
  refine runsAlike_position.bind_of_total (fun start => ⟨start, trivial⟩) fun start start' _ =>
    ⟨movesOn_expectToken.bind (hmoves start), fun hs => ?_⟩
  exact follows_expectToken_bind h hs (hmoves start) fun t t' p q htext hadjoins hs =>
    follows_operandFrom h hexpression hoperand harguments start start' htext hadjoins hs

theorem actsAlike_argumentsWithin_succ (h : Tails u v)
    (hexpression : ActsAlike u v (expressionWithin b))
    (harguments : ActsAlike u v (argumentsWithin b)) :
    ActsAlike u v (argumentsWithin (b + 1)) := by
  refine hexpression.bind fun e =>
    (actsAlike_accept h (passes_of_tails h (by decide))).bind fun more => ?_
  cases more with
  | true => exact harguments.bind fun _ => runsAlike_pure rfl
  | false => exact runsAlike_pure rfl

theorem follows_climbFrom (h : Tails u v) (hoperand : ActsAlike u v (operandWithin b))
    (hclimb : ∀ left least, ActsAlike u v (climbWithin b left least))
    (htighten : ∀ op right, ActsAlike u v (tightenWithin b op right)) (left : Expr) (least : Nat)
    {found found' : Option (BinaryOp × TokenStream)} (hfound : OperatorsAlike u v found found')
    {p q : Parser} (hs : p.Abreast u v q) :
    Follows (Parser.comparison u v) Eq (climbFrom b left least found p)
      (climbFrom b left least found' q) := by
  cases hfound with
  | @some found found' hfound =>
      obtain ⟨op, behind⟩ := found
      obtain ⟨op', behind'⟩ := found'
      obtain ⟨rfl, hbehind⟩ := hfound
      unfold climbFrom
      dsimp only
      split
      · exact follows_pure hs rfl
      · have hrest : ActsAlike u v (do
            let operand ← operandWithin b
            let right ← tightenWithin b op operand
            climbWithin b (.binary op left right) least) :=
          hoperand.bind fun operand => (htighten op operand).bind fun right => hclimb _ least
        exact hrest.follows ⟨hbehind, hs.cursor, hs.suffixes⟩
  | none =>
      unfold climbFrom
      dsimp only
      rw [bind_apply_ok (get_apply p), bind_apply_ok (get_apply q), hs.suffixes]
      split
      · refine RunsAlike.follows ((actsAlike_suffix? h left).bind fun found => ?_) hs
        cases found with
        | some e => exact hclimb e least
        | none => exact runsAlike_pure rfl
      · exact follows_pure hs rfl

theorem actsAlike_climbWithin_succ (h : Tails u v) (hoperand : ActsAlike u v (operandWithin b))
    (hclimb : ∀ left least, ActsAlike u v (climbWithin b left least))
    (htighten : ∀ op right, ActsAlike u v (tightenWithin b op right)) (left : Expr) (least : Nat) :
    ActsAlike u v (climbWithin (b + 1) left least) := by
  have hclimb' left least : MovesOn (climbWithin b left least) := (hclimb left least).moves
  have htighten' op right : MovesOn (tightenWithin b op right) := (htighten op right).moves
  refine ⟨movesOn_climbWithin_succ hoperand.moves hclimb' htighten' left least, fun hs => ?_⟩
  rw [climbWithin_succ]
  exact follows_bind hs (runsAlike_peekOperator? h)
    (fun found t hop => movesOn_climbFrom_at hoperand.moves hclimb' htighten' left least hop)
    fun found t found' t' _ _ hfound ht =>
      follows_climbFrom h hoperand hclimb htighten left least hfound ht

theorem actsAlike_tightenWithin_succ (h : Tails u v)
    (hclimb : ∀ left least, ActsAlike u v (climbWithin b left least))
    (htighten : ∀ op right, ActsAlike u v (tightenWithin b op right)) (op : BinaryOp)
    (right : Expr) : ActsAlike u v (tightenWithin (b + 1) op right) := by
  have hmoves := movesOn_tightenFrom (fun left least => (hclimb left least).moves)
    (fun op right => (htighten op right).moves) op right
  rw [tightenWithin_succ]
  refine ⟨movesOn_peekOperator?.bind hmoves, fun hs => ?_⟩
  refine follows_bind hs (runsAlike_peekOperator? h) (fun found t _ => hmoves found t) ?_
  rintro found t found' t' - - hfound ht
  cases hfound with
  | none => exact follows_pure ht rfl
  | @some found found' hfound =>
      obtain ⟨tighter, behind⟩ := found
      obtain ⟨tighter', behind'⟩ := found'
      obtain ⟨rfl, -⟩ := hfound
      unfold tightenFrom
      dsimp only
      split
      · exact follows_pure ht rfl
      · exact ((hclimb right tighter.precedence).bind fun right => htighten op right).follows ht

end Loops

/-- All the loops of an expression act alike, on whatever budget. -/
theorem actsAlike_withinBudget (h : Tails u v) (b : Nat) :
    ActsAlike u v (expressionWithin b) ∧ ActsAlike u v (operandWithin b) ∧
      ActsAlike u v (argumentsWithin b) ∧
      (∀ left least, ActsAlike u v (climbWithin b left least)) ∧
      ∀ op right, ActsAlike u v (tightenWithin b op right) := by
  induction b with
  | zero =>
      exact ⟨runsAlike_throw rfl, runsAlike_throw rfl, runsAlike_throw rfl,
        fun _ _ => runsAlike_throw rfl, fun _ _ => runsAlike_throw rfl⟩
  | succ b ih =>
      obtain ⟨hexpression, hoperand, harguments, hclimb, htighten⟩ := ih
      exact ⟨hoperand.bind fun left => hclimb left 0,
        actsAlike_operandWithin_succ h hexpression hoperand harguments,
        actsAlike_argumentsWithin_succ h hexpression harguments,
        actsAlike_climbWithin_succ h hoperand hclimb htighten,
        actsAlike_tightenWithin_succ h hclimb htighten⟩

theorem actsAlike_expression (h : Tails u v) : ActsAlike u v expression :=
  runsAlike_onBudget (fun b => (budgetFree_withinBudget b).1)
    (fun b => (actsAlike_withinBudget h b).1)
    fun p => Nat.add_le_add_left (by decide) (4 * p.ahead.length)

end OnePassSql.Parse

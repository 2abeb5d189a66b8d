import OnePassSql.Proofs.Faults.Evaluation
import OnePassSql.Proofs.Faults.Tokens
import OnePassSql.Proofs.Parser.Budget

/-!
What reading an expression can fault with: a character that starts no token, or something that is not
expected at a place. The step budgets are enough for it, and of calls it gives none but COALESCE.
-/

namespace OnePassSql.Parse

open Step

variable {s : TokenStream} {b : Nat}

/-! ## Operators -/

theorem readsIn_peekOperator? :
    ReadsIn s (fun found => ∀ op behind, found = some (op, behind) → s.LeadsTo behind)
      peekOperator? := by
  refine readsIn_peek.bind fun t _ => ?_
  cases t with
  | none => exact ends_pure nofun
  | some first =>
      refine ends_get.bind fun p hp => ?_
      have hsingle : ∀ op behind,
          (meaning? singleSigns first).map (fun op => (op, p.ahead.tail)) = some (op, behind) →
            s.LeadsTo behind := by
        intro op behind hop
        obtain ⟨op', -, he⟩ := Option.map_eq_some_iff.mp hop
        cases he
        exact hp.trans p.ahead.leadsTo_tail
      dsimp only
      split
      · exact ends_pure hsingle
      · refine readsIn_skip.bind fun _ _ => readsIn_peek.bind fun second _ =>
          (readsIn_resume hp).bind fun _ _ => ?_
        split
        · refine ends_pure fun op behind hop => ?_
          cases hop
          exact (hp.trans p.ahead.leadsTo_tail).trans (TokenStream.leadsTo_tail _)
        · exact ends_pure hsingle

/-! ## Operands -/

theorem readsIn_placeCursor (question : Token) :
    ReadsIn s (fun _ => True) (placeCursor question) := by
  refine readsIn_peek.bind fun t ht => ?_
  cases t with
  | none => exact ends_pure trivial
  | some t =>
      dsimp only
      split
      · refine readsIn_skip.bind fun _ _ => ?_
        split
        · exact ends_modify fun _ hp => hp
        · exact ends_throw (.parse (.inl ⟨t, ht t rfl, rfl⟩))
      · exact ends_pure trivial

theorem readsIn_parameter {question : Token} (h : question ∈ s.toList) :
    ReadsIn s Expr.CallsKnown (parameter question) := by
  refine (readsIn_placeCursor question).bind fun _ _ => ends_get.bind fun p _ => ?_
  dsimp only
  split
  · exact Ends.bind (ends_modify fun _ hp => hp) fun _ _ => ends_pure trivial
  · exact ends_throw (.parse (.inl ⟨question, h, rfl⟩))

theorem readsIn_leastInteger? (minus : Token) :
    ReadsIn s (fun found => ∀ e, found = some e → e.CallsKnown) (leastInteger? minus) := by
  refine readsIn_peek.bind fun t _ => ?_
  cases t with
  | none => exact ends_pure nofun
  | some t =>
      dsimp only
      split
      · refine ends_get.bind fun p hp => readsIn_skip.bind fun _ _ =>
          readsIn_peekOperator?.bind fun found _ => ?_
        cases found with
        | some found => exact (readsIn_resume hp).bind fun _ _ => ends_pure nofun
        | none =>
            refine ends_pure fun e he => ?_
            cases he
            exact trivial
      · exact ends_pure nofun

theorem readsIn_membershipList : ReadsIn s (fun _ => True) membershipList := by
  refine (readsIn_expect "(").bind fun _ _ => ends_get.bind fun p hp => ?_
  dsimp only
  split
  · next hlist =>
      exact (readsIn_resume (hp.trans (TokenStream.leadsTo_of_enclosed? hlist))).bind
        fun _ _ => ends_pure trivial
  · exact (readsIn_resume (hp.trans p.ahead.leadsTo_ending)).bind fun _ _ =>
      readsIn_expectToken.bind fun _ _ => ends_pure trivial

theorem readsIn_suffix? {operand : Expr} (h : operand.CallsKnown) :
    ReadsIn s (fun found => ∀ e, found = some e → e.CallsKnown) (suffix? operand) := by
  -- whatever the form, it is made of the operand alone
  have hform : ∀ e : Expr, (operand.CallsKnown → e.CallsKnown) →
      ReadsIn s (fun found => ∀ e, found = some e → e.CallsKnown) (pure (some e)) :=
    fun e he => ends_pure fun e' he' => Option.some.inj he' ▸ he h
  refine (readsIn_acceptOne? _).bind fun found _ => ?_
  cases found with
  | none => exact ends_pure nofun
  | some form =>
      cases form with
      | notNull => exact hform _ id
      | isNull => exact hform _ id
      | membership => exact readsIn_membershipList.bind fun _ _ => hform _ id
      | negated =>
          refine (readsIn_expectOne _).bind fun isNull _ => ?_
          cases isNull with
          | true => exact hform _ id
          | false => exact readsIn_membershipList.bind fun _ _ => hform _ id

theorem readsIn_atom {t : Token} (ht : t ∈ s.toList) {start : Nat} (hstart : s.IsPlace start) :
    ReadsIn s Expr.CallsKnown (atom t start) := by
  unfold atom
  split
  · split
    · exact ends_pure trivial
    · exact ends_throw (.parse (.inl ⟨t, ht, rfl⟩))
  · exact ends_pure trivial
  · exact ends_pure trivial
  · exact ends_pure trivial
  · exact ends_throw (.parse hstart)

/-! ## The loops -/

/-- On the budget, wherever it is at least `factor` times the tokens left and `extra`, the loop reads
an expression. -/
abbrev ReadsOnBudget (s : TokenStream) (loop : Nat → Parse Expr) (factor extra budget : Nat) :
    Prop :=
  EndsOnBudget s s.ReadingFault Expr.CallsKnown loop factor extra budget

/-- So it does for the list of the arguments of a call. -/
abbrev ArgumentsOnBudget (s : TokenStream) (budget : Nat) : Prop :=
  EndsOnBudget s s.ReadingFault Expr.AllCallKnown argumentsWithin 4 3 budget

section

variable (hexpression : ReadsOnBudget s expressionWithin 4 2 b)
  (hoperand : ReadsOnBudget s operandWithin 4 1 b) (harguments : ArgumentsOnBudget s b)
  (hclimb : ∀ left : Expr, left.CallsKnown →
    ∀ least, ReadsOnBudget s (climbWithin · left least) 4 1 b)
  (htighten : ∀ op (right : Expr), right.CallsKnown →
    ReadsOnBudget s (tightenWithin · op right) 4 2 b)

include hoperand hclimb in
theorem readsOnBudget_expressionWithin_succ : ReadsOnBudget s expressionWithin 4 2 (b + 1) := by
  intro p hp hb
  refine endsAt_bind (hoperand p hp (by omega)) fun left q hq hwithin hleft => ?_
  have hle := (movesOn_withinBudget b).2.1.length_le hq
  exact hclimb left hleft 0 q hwithin (by omega)

include hexpression hoperand harguments in
theorem endsAt_operandFrom {t : Token} (ht : t ∈ s.toList) {start : Nat}
    (hstart : s.IsPlace start) {p : Parser} (hp : p.Within s) (hb : 4 * p.ahead.length + 4 ≤ b) :
    EndsAt (Parser.Within s) s.ReadingFault Expr.CallsKnown (operandFrom b start t) p := by
  unfold operandFrom
  split
  · refine endsAt_bind (readsIn_expect "(" p hp) fun _ q hq hwithin _ => ?_
    have hle := (movesOn_expect "(").length_le hq
    exact endsAt_bind (harguments q hwithin (by omega)) fun arguments r _ hwithin hknown =>
      ((readsIn_expect ")").bind fun _ _ => ends_pure ⟨rfl, hknown⟩) r hwithin
  split
  · exact endsAt_pure hp trivial
  split
  · exact endsAt_bind (hoperand p hp (by omega)) fun operand q _ hwithin hknown =>
      endsAt_pure hwithin hknown
  split
  · refine endsAt_bind (endsAt_withSuffixes true (hexpression _ hp (by dsimp only; omega)))
      fun e q _ hwithin hknown => ?_
    exact ((readsIn_expect ")").bind fun _ _ => ends_pure hknown) q hwithin
  split
  · exact readsIn_parameter ht p hp
  split
  · refine endsAt_bind (readsIn_leastInteger? t p hp) fun found q hq hwithin hfound => ?_
    cases found with
    | some e => exact endsAt_pure hwithin (hfound e rfl)
    | none =>
        have hle := (movesOn_leastInteger? t).length_le hq
        exact endsAt_bind (hexpression q hwithin (by omega)) fun operand r _ hwithin hknown =>
          endsAt_pure hwithin hknown
  · exact readsIn_atom ht hstart p hp

include hexpression hoperand harguments in
theorem readsOnBudget_operandWithin_succ : ReadsOnBudget s operandWithin 4 1 (b + 1) := by
  intro p hp hb
  rw [EndsAt, operandWithin_succ, bind_apply_ok (position_apply p)]
  refine endsAt_bind (readsIn_expectToken p hp) fun t q hq hwithin ht => ?_
  have hlt := length_lt_of_expectToken hq
  obtain ⟨rest, hahead, -⟩ := expectToken_eq_ok hq
  have hplace := isPlace_of_peek hp (peek_of_token hahead)
  exact endsAt_operandFrom hexpression hoperand harguments ht hplace hwithin (by omega)

include hexpression harguments in
theorem argumentsOnBudget_succ : ArgumentsOnBudget s (b + 1) := by
  intro p hp hb
  refine endsAt_bind (hexpression p hp (by omega)) fun e q hq hwithin he => ?_
  refine endsAt_bind (readsIn_accept "," q hwithin) fun more r hr hwithin _ => ?_
  cases more with
  | false => exact endsAt_pure hwithin ⟨he, trivial⟩
  | true =>
      have hle := (movesOn_withinBudget b).1.length_le hq
      have hlt := length_lt_of_accept hr
      exact endsAt_bind (harguments r hwithin (by omega)) fun rest r' _ hwithin hrest =>
        endsAt_pure hwithin ⟨he, hrest⟩

include hoperand hclimb htighten in
theorem readsOnBudget_climbWithin_succ {left : Expr} (hleft : left.CallsKnown) (least : Nat) :
    ReadsOnBudget s (climbWithin · left least) 4 1 (b + 1) := by
  intro p hp hb
  refine endsAt_bind (readsIn_peekOperator? p hp) fun found q hop hwithin hfound => ?_
  obtain ⟨rfl, hbehind⟩ := peekOperator?_eq_ok hop
  cases found with
  | some found =>
      obtain ⟨op, behind⟩ := found
      have hlt := (hbehind op behind rfl).2
      dsimp only
      split
      · exact endsAt_pure hwithin hleft
      · refine endsAt_bind (readsIn_resume (hfound op behind rfl) q hwithin)
          fun _ q₁ hq₁ hwithin _ => ?_
        cases hq₁
        refine endsAt_bind (hoperand _ hwithin (by dsimp only; omega))
          fun operand q₂ hq₂ hwithin hknown => ?_
        have hle₂ := (movesOn_withinBudget b).2.1.length_le hq₂
        dsimp only at hle₂
        refine endsAt_bind (htighten op operand hknown q₂ hwithin (by omega))
          fun right q₃ hq₃ hwithin hright => ?_
        have hle₃ := ((movesOn_withinBudget b).2.2.2.2 op operand).length_le hq₃
        exact hclimb (.binary op left right) ⟨hleft, hright⟩ least q₃ hwithin (by omega)
  | none =>
      refine endsAt_bind (ends_get q hwithin) fun state q₁ hq₁ hwithin _ => ?_
      cases hq₁
      split
      · refine endsAt_bind (readsIn_suffix? hleft q hwithin) fun found q₂ hq₂ hwithin hknown => ?_
        cases found with
        | none => exact endsAt_pure hwithin hleft
        | some e =>
            have hlt := length_lt_of_suffix? hq₂
            exact hclimb e (hknown e rfl) least q₂ hwithin (by omega)
      · exact endsAt_pure hwithin hleft

include hclimb htighten in
theorem readsOnBudget_tightenWithin_succ (op : BinaryOp) {right : Expr}
    (hright : right.CallsKnown) : ReadsOnBudget s (tightenWithin · op right) 4 2 (b + 1) := by
  intro p hp hb
  refine endsAt_bind (readsIn_peekOperator? p hp) fun found q hop hwithin _ => ?_
  obtain ⟨rfl, -⟩ := peekOperator?_eq_ok hop
  cases found with
  | none => exact endsAt_pure hwithin hright
  | some found =>
      obtain ⟨tighter, behind⟩ := found
      dsimp only
      split
      · exact endsAt_pure hwithin hright
      · refine endsAt_bind (hclimb right hright _ q hwithin (by omega))
          fun right' q₂ hq₂ hwithin hknown => ?_
        have hlt := length_lt_of_climbWithin hop (Nat.le_refl _) hq₂
        exact htighten op right' hknown q₂ hwithin (by omega)

end

/-- With budgets that suffice, every loop of an expression reads. -/
theorem readsOnBudget_withinBudget (s : TokenStream) (b : Nat) :
    ReadsOnBudget s expressionWithin 4 2 b ∧ ReadsOnBudget s operandWithin 4 1 b ∧
      ArgumentsOnBudget s b ∧
      (∀ left : Expr, left.CallsKnown →
        ∀ least, ReadsOnBudget s (climbWithin · left least) 4 1 b) ∧
      ∀ op (right : Expr), right.CallsKnown →
        ReadsOnBudget s (tightenWithin · op right) 4 2 b := by
  induction b with
  | zero =>
      exact ⟨endsOnBudget_zero (by omega), endsOnBudget_zero (by omega),
        endsOnBudget_zero (by omega), fun _ _ _ => endsOnBudget_zero (by omega),
        fun _ _ _ => endsOnBudget_zero (by omega)⟩
  | succ b ih =>
      obtain ⟨hexpression, hoperand, harguments, hclimb, htighten⟩ := ih
      exact ⟨readsOnBudget_expressionWithin_succ hoperand hclimb,
        readsOnBudget_operandWithin_succ hexpression hoperand harguments,
        argumentsOnBudget_succ hexpression harguments,
        fun left hleft => readsOnBudget_climbWithin_succ hoperand hclimb htighten hleft,
        fun op right hright => readsOnBudget_tightenWithin_succ hclimb htighten op hright⟩

theorem readsIn_expression : ReadsIn s Expr.CallsKnown expression := by
  intro p hp
  have hbudget : budget p = .ok (4 * p.ahead.length + 4) p := rfl
  rw [EndsAt, expression, bind_apply_ok hbudget]
  exact (readsOnBudget_withinBudget s _).1 p hp (by omega)

theorem readsIn_operand : ReadsIn s Expr.CallsKnown operand := by
  intro p hp
  have hbudget : budget p = .ok (4 * p.ahead.length + 4) p := rfl
  rw [EndsAt, operand, bind_apply_ok hbudget]
  exact (readsOnBudget_withinBudget s _).2.1 p hp (by omega)

theorem readsIn_constantExpression : ReadsIn s Expr.CallsKnown constantExpression :=
  fun _ hp => endsAt_withSuffixes false (readsIn_expression _ hp)

end OnePassSql.Parse

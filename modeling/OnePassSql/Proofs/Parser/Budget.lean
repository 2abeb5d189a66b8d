import OnePassSql.Proofs.Parser.Clauses

/-!
The step budgets of the parser's loops do not show: every two budgets that suffice for the tokens
left give the same run. For an expression four steps for each token suffice, because between two
tokens that are taken at most four loops are entered.
-/

namespace OnePassSql.Parse

open Step

variable {α : Type}

/-! ## What is left -/

theorem MovesOn.length_le {step : Parse α} (h : MovesOn step) {p q : Parser} {a : α}
    (hs : step p = .ok a q) : q.ahead.length ≤ p.ahead.length :=
  TokenStream.LeadsTo.length_le (h.ok hs)

theorem length_lt_of_accept {word : String} {p q : Parser} (h : accept word p = .ok true q) :
    q.ahead.length < p.ahead.length := by
  rcases accept_eq_ok h with ⟨hfalse, -⟩ | ⟨-, first, rest, hahead, rfl⟩
  · cases hfalse
  · simp [hahead, TokenStream.length]

theorem length_lt_of_acceptOne? {options : List (String × α)} {p q : Parser} {a : α}
    (h : acceptOne? options p = .ok (some a) q) : q.ahead.length < p.ahead.length := by
  rcases acceptOne?_eq_ok h with ⟨hnone, -⟩ | ⟨-, first, rest, -, -, hahead, rfl⟩
  · cases hnone
  · simp [hahead, TokenStream.length]

theorem length_lt_of_expectToken {p q : Parser} {t : Token} (h : expectToken p = .ok t q) :
    q.ahead.length < p.ahead.length := by
  obtain ⟨rest, hahead, rfl⟩ := expectToken_eq_ok h
  simp [hahead, TokenStream.length]

/-! ## Loops with a budget -/

/-- On `budget`, if it is at least `factor` times the tokens left and `extra`, the loop runs as on
every other budget that is. -/
def BudgetFree (loop : Nat → Parse α) (factor extra budget : Nat) : Prop :=
  ∀ (p : Parser) (other : Nat), factor * p.ahead.length + extra ≤ budget →
    factor * p.ahead.length + extra ≤ other → loop budget p = loop other p

theorem budgetFree_separated {form : Parse α} (h : MovesOn form) (budget : Nat) :
    BudgetFree (separated form) 1 1 budget := by
  induction budget with
  | zero => exact fun p other hbudget => absurd hbudget (Nat.not_succ_le_zero _)
  | succ budget ih =>
      intro p other hbudget hother
      obtain ⟨other, rfl⟩ : ∃ n, other = n + 1 := ⟨other - 1, by omega⟩
      unfold separated
      refine bind_congr rfl fun a p₁ h₁ => bind_congr rfl fun more p₂ h₂ => ?_
      have hle := h.length_le h₁
      cases more with
      | false => rfl
      | true =>
          have hlt := length_lt_of_accept h₂
          exact bind_congr (ih p₂ other (by omega) (by omega)) fun _ _ _ => rfl

section Loops

variable {b : Nat}

/-- With an operator ahead that binds tightly enough, climbing takes it. -/
theorem length_lt_of_climbWithin {right e : Expr} {least : Nat} {op : BinaryOp}
    {behind : TokenStream} {p q : Parser} (hop : peekOperator? p = .ok (some (op, behind)) p)
    (hleast : least ≤ op.precedence) (h : climbWithin b right least p = .ok e q) :
    q.ahead.length < p.ahead.length := by
  cases b with
  | zero => cases h
  | succ b =>
      have hlt := ((peekOperator?_eq_ok hop).2 op behind rfl).2
      unfold climbWithin at h
      rw [bind_apply_ok hop] at h
      dsimp only at h
      rw [if_neg (Nat.not_lt.mpr hleast)] at h
      obtain ⟨_, p₁, hresume, h⟩ := bind_eq_ok.mp h
      cases hresume
      obtain ⟨-, hoperand, -, hclimb, htighten⟩ := movesOn_withinBudget b
      have hmoves : MovesOn (operandWithin b >>= fun operand => tightenWithin b op operand >>=
          fun right' => climbWithin b (.binary op right right') least) :=
        hoperand.bind fun operand => (htighten op operand).bind fun right' => hclimb _ least
      exact Nat.lt_of_le_of_lt (hmoves.length_le h) hlt

/-- A form that stands behind an operand takes a token. -/
theorem length_lt_of_suffix? {operand e : Expr} {p q : Parser}
    (h : suffix? operand p = .ok (some e) q) : q.ahead.length < p.ahead.length := by
  obtain ⟨found, p₁, hfound, hform⟩ := bind_eq_ok.mp h
  cases found with
  | none => cases hform
  | some form =>
      refine Nat.lt_of_le_of_lt ?_ (length_lt_of_acceptOne? hfound)
      cases form with
      | notNull =>
          cases hform
          exact Nat.le_refl _
      | isNull =>
          cases hform
          exact Nat.le_refl _
      | membership =>
          exact MovesOn.length_le (movesOn_membershipList.bind fun _ => respects_pure _) hform
      | negated =>
          obtain ⟨isNull, p₂, hnull, hform⟩ := bind_eq_ok.mp hform
          refine Nat.le_trans ?_ ((movesOn_expectOne _).length_le hnull)
          cases isNull with
          | true =>
              cases hform
              exact Nat.le_refl _
          | false =>
              exact MovesOn.length_le (movesOn_membershipList.bind fun _ => respects_pure _) hform

theorem budgetFree_expressionWithin_succ
    (hoperand : BudgetFree operandWithin 4 1 b)
    (hclimb : ∀ left least, BudgetFree (climbWithin · left least) 4 1 b) :
    BudgetFree expressionWithin 4 2 (b + 1) := by
  intro p other hb hother
  obtain ⟨other, rfl⟩ : ∃ n, other = n + 1 := ⟨other - 1, by omega⟩
  unfold expressionWithin
  refine bind_congr (hoperand p other (by omega) (by omega))
    fun left q h => ?_
  have hle := (movesOn_withinBudget b).2.1.length_le h
  exact hclimb left 0 q other (by omega) (by omega)

theorem budgetFree_operandWithin_succ (hexpression : BudgetFree expressionWithin 4 2 b)
    (hoperand : BudgetFree operandWithin 4 1 b)
    (harguments : BudgetFree argumentsWithin 4 3 b) :
    BudgetFree operandWithin 4 1 (b + 1) := by
  intro p other hb hother
  obtain ⟨other, rfl⟩ : ∃ n, other = n + 1 := ⟨other - 1, by omega⟩
  unfold operandWithin
  refine bind_congr rfl fun start p₁ h₁ => bind_congr rfl fun t p₂ h₂ => ?_
  cases h₁
  have hlt := length_lt_of_expectToken h₂
  split
  · refine bind_congr rfl fun _ p₃ h₃ => ?_
    have hle := (movesOn_expect _).length_le h₃
    exact bind_congr (harguments p₃ other (by omega) (by omega))
      fun _ _ _ => rfl
  split
  · rfl
  split
  · exact bind_congr (hoperand p₂ other (by omega) (by omega))
      fun _ _ _ => rfl
  split
  · refine bind_congr ?_ fun _ _ _ => rfl
    unfold withSuffixes
    rw [hexpression { p₂ with suffixes := true } other (by dsimp only; omega)
      (by dsimp only; omega)]
  split
  · rfl
  split
  · refine bind_congr rfl fun found p₃ h₃ => ?_
    have hle := (movesOn_leastInteger? t).length_le h₃
    cases found with
    | some e => rfl
    | none =>
        exact bind_congr (hexpression p₃ other (by omega) (by omega))
          fun _ _ _ => rfl
  · rfl

theorem budgetFree_argumentsWithin_succ (hexpression : BudgetFree expressionWithin 4 2 b)
    (harguments : BudgetFree argumentsWithin 4 3 b) :
    BudgetFree argumentsWithin 4 3 (b + 1) := by
  intro p other hb hother
  obtain ⟨other, rfl⟩ : ∃ n, other = n + 1 := ⟨other - 1, by omega⟩
  unfold argumentsWithin
  refine bind_congr (hexpression p other (by omega) (by omega))
    fun e p₁ h₁ => bind_congr rfl fun more p₂ h₂ => ?_
  have hle := (movesOn_withinBudget b).1.length_le h₁
  cases more with
  | false => rfl
  | true =>
      have hlt := length_lt_of_accept h₂
      exact bind_congr (harguments p₂ other (by omega) (by omega))
        fun _ _ _ => rfl

theorem budgetFree_climbWithin_succ (hoperand : BudgetFree operandWithin 4 1 b)
    (hclimb : ∀ left least, BudgetFree (climbWithin · left least) 4 1 b)
    (htighten : ∀ op right, BudgetFree (tightenWithin · op right) 4 2 b)
    (left : Expr) (least : Nat) :
    BudgetFree (climbWithin · left least) 4 1 (b + 1) := by
  intro p other hb hother
  obtain ⟨other, rfl⟩ : ∃ n, other = n + 1 := ⟨other - 1, by omega⟩
  dsimp only
  unfold climbWithin
  refine bind_congr rfl fun found p₁ hop => ?_
  obtain ⟨rfl, hbehind⟩ := peekOperator?_eq_ok hop
  cases found with
  | some found =>
      obtain ⟨op, behind⟩ := found
      have hlt := (hbehind op behind rfl).2
      dsimp only
      split
      · rfl
      · refine bind_congr rfl fun _ p₂ h₂ => ?_
        cases h₂
        refine bind_congr (hoperand { p₁ with ahead := behind } other (by dsimp only; omega)
          (by dsimp only; omega)) fun operand p₃ h₃ => ?_
        obtain ⟨-, hmoves, -, -, hmoves'⟩ := movesOn_withinBudget b
        have hle₃ := hmoves.length_le h₃
        refine bind_congr (htighten op operand p₃ other (by dsimp only at hle₃; omega)
          (by dsimp only at hle₃; omega)) fun right p₄ h₄ => ?_
        have hle₄ := (hmoves' op operand).length_le h₄
        exact hclimb _ least p₄ other (by dsimp only at hle₃; omega)
          (by dsimp only at hle₃; omega)
  | none =>
      refine bind_congr rfl fun state p₂ h₂ => ?_
      cases h₂
      split
      · refine bind_congr rfl fun found p₃ h₃ => ?_
        cases found with
        | none => rfl
        | some e =>
            have hlt := length_lt_of_suffix? h₃
            exact hclimb e least p₃ other (by omega) (by omega)
      · rfl

theorem budgetFree_tightenWithin_succ
    (hclimb : ∀ left least, BudgetFree (climbWithin · left least) 4 1 b)
    (htighten : ∀ op right, BudgetFree (tightenWithin · op right) 4 2 b)
    (op : BinaryOp) (right : Expr) :
    BudgetFree (tightenWithin · op right) 4 2 (b + 1) := by
  intro p other hb hother
  obtain ⟨other, rfl⟩ : ∃ n, other = n + 1 := ⟨other - 1, by omega⟩
  dsimp only
  unfold tightenWithin
  refine bind_congr rfl fun found p₁ hop => ?_
  obtain ⟨rfl, -⟩ := peekOperator?_eq_ok hop
  cases found with
  | none => rfl
  | some found =>
      obtain ⟨tighter, behind⟩ := found
      dsimp only
      split
      · rfl
      · refine bind_congr (hclimb right _ p₁ other (by omega) (by omega))
          fun right' p₂ h₂ => ?_
        have hlt := length_lt_of_climbWithin hop (Nat.le_refl _) h₂
        exact htighten op right' p₂ other (by omega) (by omega)

end Loops

/-- The budget of no loop of an expression shows if it suffices. -/
theorem budgetFree_withinBudget (b : Nat) :
    BudgetFree expressionWithin 4 2 b ∧ BudgetFree operandWithin 4 1 b ∧
      BudgetFree argumentsWithin 4 3 b ∧
      (∀ left least, BudgetFree (climbWithin · left least) 4 1 b) ∧
      ∀ op right, BudgetFree (tightenWithin · op right) 4 2 b := by
  induction b with
  | zero =>
      exact ⟨fun p _ hb => absurd hb (Nat.not_succ_le_zero _),
        fun p _ hb => absurd hb (Nat.not_succ_le_zero _),
        fun p _ hb => absurd hb (Nat.not_succ_le_zero _),
        fun _ _ p _ hb => absurd hb (Nat.not_succ_le_zero _),
        fun _ _ p _ hb => absurd hb (Nat.not_succ_le_zero _)⟩
  | succ b ih =>
      obtain ⟨hexpression, hoperand, harguments, hclimb, htighten⟩ := ih
      exact ⟨budgetFree_expressionWithin_succ hoperand hclimb,
        budgetFree_operandWithin_succ hexpression hoperand harguments,
        budgetFree_argumentsWithin_succ hexpression harguments,
        budgetFree_climbWithin_succ hoperand hclimb htighten,
        budgetFree_tightenWithin_succ hclimb htighten⟩

end OnePassSql.Parse

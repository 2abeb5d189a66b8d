import OnePassSql.Proofs.Parser.Clauses

/-!
Whether forms are read behind operands. Inside parentheses they are switched on, and set back as they
were also after a fault; no other step touches that. So reading an expression leaves it as it was.
-/

namespace OnePassSql

open Step

/-- In both states the forms behind operands are read, or in neither. -/
def Parser.SameSuffixes (p q : Parser) : Prop := p.suffixes = q.suffixes

instance : IsPreorder Parser Parser.SameSuffixes where
  refl _ := rfl
  trans _ _ _ hpq hqr := Eq.trans hpq hqr

namespace Parse

variable {α : Type}

/-- Behind every run of the step forms are read exactly if they were before it. -/
abbrev KeepsSuffixes (x : Parse α) : Prop := Respects Parser.SameSuffixes x

/-! ## Steps that change nothing but the tokens ahead -/

theorem keepsSuffixes_skip : KeepsSuffixes skip := respects_modify fun _ => rfl

theorem keepsSuffixes_resume (ahead : TokenStream) : KeepsSuffixes (resume ahead) :=
  respects_modify fun _ => rfl

theorem keepsSuffixes_peek : KeepsSuffixes peek := by
  unfold peek
  refine respects_get.bind fun p => ?_
  cases p.ahead with
  | token first rest => exact respects_pure _
  | done n => exact respects_pure _
  | fault ch n => exact respects_throw _

theorem keepsSuffixes_position : KeepsSuffixes position :=
  respects_get.bind fun _ => respects_pure _

theorem keepsSuffixes_atom (t : Token) (start : Nat) : KeepsSuffixes (atom t start) := by
  unfold atom
  split
  · split
    · exact respects_pure _
    · exact respects_throw _
  · exact respects_pure _
  · exact respects_pure _
  · exact respects_pure _
  · exact respects_throw _

theorem keepsSuffixes_next : KeepsSuffixes next :=
  keepsSuffixes_peek.bind fun _ => keepsSuffixes_skip.bind fun _ => respects_pure _

theorem keepsSuffixes_acceptOne? (options : List (String × α)) :
    KeepsSuffixes (acceptOne? options) := by
  refine keepsSuffixes_peek.bind fun t => ?_
  split
  · exact keepsSuffixes_skip.bind fun _ => respects_pure _
  · exact respects_pure _

theorem keepsSuffixes_expectOne (options : List (String × α)) :
    KeepsSuffixes (expectOne options) := by
  refine keepsSuffixes_position.bind fun start => keepsSuffixes_next.bind fun t => ?_
  split
  · exact respects_pure _
  · exact respects_throw _

theorem keepsSuffixes_accept (word : String) : KeepsSuffixes (accept word) :=
  (keepsSuffixes_acceptOne? _).bind fun _ => respects_pure _

theorem keepsSuffixes_expectToken : KeepsSuffixes expectToken := by
  refine keepsSuffixes_position.bind fun start => keepsSuffixes_next.bind fun t => ?_
  cases t with
  | some t => exact respects_pure _
  | none => exact respects_throw _

theorem keepsSuffixes_peekOperator? : KeepsSuffixes peekOperator? := by
  refine keepsSuffixes_peek.bind fun t => ?_
  cases t with
  | none => exact respects_pure _
  | some first =>
      refine respects_get.bind fun p => ?_
      dsimp only
      split
      · exact respects_pure _
      · refine keepsSuffixes_skip.bind fun _ => keepsSuffixes_peek.bind fun second =>
          (keepsSuffixes_resume _).bind fun _ => ?_
        split
        · exact respects_pure _
        · exact respects_pure _

theorem keepsSuffixes_leastInteger? (minus : Token) : KeepsSuffixes (leastInteger? minus) := by
  refine keepsSuffixes_peek.bind fun t => ?_
  cases t with
  | none => exact respects_pure _
  | some t =>
      dsimp only
      split
      · refine respects_get.bind fun p => keepsSuffixes_skip.bind fun _ =>
          keepsSuffixes_peekOperator?.bind fun found => ?_
        cases found with
        | none => exact respects_pure _
        | some found => exact (keepsSuffixes_resume _).bind fun _ => respects_pure _
      · exact respects_pure _

theorem keepsSuffixes_membershipList : KeepsSuffixes membershipList := by
  refine (keepsSuffixes_expectOne _).bind fun _ => respects_get.bind fun p => ?_
  dsimp only
  split
  · exact (keepsSuffixes_resume _).bind fun _ => respects_pure _
  · exact (keepsSuffixes_resume _).bind fun _ => keepsSuffixes_expectToken.bind fun _ =>
      respects_pure _

theorem keepsSuffixes_suffix? (operand : Expr) : KeepsSuffixes (suffix? operand) := by
  refine (keepsSuffixes_acceptOne? _).bind fun found => ?_
  cases found with
  | none => exact respects_pure _
  | some form =>
      cases form with
      | notNull => exact respects_pure _
      | isNull => exact respects_pure _
      | membership => exact keepsSuffixes_membershipList.bind fun _ => respects_pure _
      | negated =>
          refine (keepsSuffixes_expectOne _).bind fun isNull => ?_
          cases isNull with
          | true => exact respects_pure _
          | false => exact keepsSuffixes_membershipList.bind fun _ => respects_pure _

/-! ## Steps that switch the forms or move the cursor -/

theorem keepsSuffixes_withSuffixes (on : Bool) (form : Parse α) :
    KeepsSuffixes (withSuffixes on form) := by
  intro p
  unfold stateAfter withSuffixes
  cases form { p with suffixes := on } <;> rfl

theorem withSuffixes_eq_ok {on : Bool} {form : Parse α} {p q : Parser} {a : α}
    (h : withSuffixes on form p = .ok a q) :
    ∃ r, form { p with suffixes := on } = .ok a r ∧ q = { r with suffixes := p.suffixes } := by
  unfold withSuffixes at h
  cases hinside : form { p with suffixes := on } with
  | ok b r =>
      rw [hinside] at h
      cases h
      exact ⟨r, rfl, rfl⟩
  | error e r =>
      rw [hinside] at h
      cases h

theorem keepsSuffixes_parameter (question : Token) : KeepsSuffixes (parameter question) := by
  have hplace : KeepsSuffixes (placeCursor question) := by
    refine keepsSuffixes_peek.bind fun t => ?_
    cases t with
    | none => exact respects_pure _
    | some t =>
        dsimp only
        split
        · refine keepsSuffixes_skip.bind fun _ => ?_
          split
          · exact respects_modify fun _ => rfl
          · exact respects_throw _
        · exact respects_pure _
  refine hplace.bind fun _ => respects_get.bind fun p => ?_
  dsimp only
  split
  · exact Respects.bind (R := Parser.SameSuffixes) (respects_modify fun _ => rfl)
      fun _ => respects_pure _
  · exact respects_throw _

section Loops

variable {budget : Nat}

theorem keepsSuffixes_operandFrom (hexpression : KeepsSuffixes (expressionWithin budget))
    (hoperand : KeepsSuffixes (operandWithin budget))
    (harguments : KeepsSuffixes (argumentsWithin budget)) (start : Nat) (t : Token) :
    KeepsSuffixes (operandFrom budget start t) := by
  have hexpect (word : String) : KeepsSuffixes (expect word) := keepsSuffixes_expectOne _
  unfold operandFrom
  split
  · exact (hexpect _).bind fun _ => harguments.bind fun _ => (hexpect _).bind fun _ =>
      respects_pure _
  split
  · exact respects_pure _
  split
  · exact hoperand.bind fun _ => respects_pure _
  split
  · exact (keepsSuffixes_withSuffixes _ _).bind fun _ => (hexpect _).bind fun _ =>
      respects_pure _
  split
  · exact keepsSuffixes_parameter t
  split
  · refine (keepsSuffixes_leastInteger? t).bind fun found => ?_
    cases found with
    | some e => exact respects_pure _
    | none => exact hexpression.bind fun _ => respects_pure _
  · exact keepsSuffixes_atom t start

theorem keepsSuffixes_argumentsWithin_succ (hexpression : KeepsSuffixes (expressionWithin budget))
    (harguments : KeepsSuffixes (argumentsWithin budget)) :
    KeepsSuffixes (argumentsWithin (budget + 1)) := by
  refine hexpression.bind fun e => (keepsSuffixes_accept ",").bind fun more => ?_
  cases more with
  | true => exact harguments.bind fun _ => respects_pure _
  | false => exact respects_pure _

theorem keepsSuffixes_climbFrom (hoperand : KeepsSuffixes (operandWithin budget))
    (hclimb : ∀ left least, KeepsSuffixes (climbWithin budget left least))
    (htighten : ∀ op right, KeepsSuffixes (tightenWithin budget op right)) (left : Expr)
    (least : Nat) (found : Option (BinaryOp × TokenStream)) :
    KeepsSuffixes (climbFrom budget left least found) := by
  cases found with
  | some found =>
      obtain ⟨op, behind⟩ := found
      unfold climbFrom
      dsimp only
      split
      · exact respects_pure _
      · exact (keepsSuffixes_resume behind).bind fun _ => hoperand.bind fun operand =>
          (htighten op operand).bind fun right => hclimb (.binary op left right) least
  | none =>
      refine respects_get.bind fun p => ?_
      split
      · refine (keepsSuffixes_suffix? left).bind fun found => ?_
        cases found with
        | some e => exact hclimb e least
        | none => exact respects_pure _
      · exact respects_pure _

theorem keepsSuffixes_tightenFrom
    (hclimb : ∀ left least, KeepsSuffixes (climbWithin budget left least))
    (htighten : ∀ op right, KeepsSuffixes (tightenWithin budget op right)) (op : BinaryOp)
    (right : Expr) (found : Option (BinaryOp × TokenStream)) :
    KeepsSuffixes (tightenFrom budget op right found) := by
  cases found with
  | some found =>
      obtain ⟨tighter, behind⟩ := found
      unfold tightenFrom
      dsimp only
      split
      · exact respects_pure _
      · exact (hclimb right tighter.precedence).bind fun right => htighten op right
  | none => exact respects_pure _

end Loops

/-- All the loops of an expression leave the forms as they were, on whatever budget. -/
theorem keepsSuffixes_withinBudget (budget : Nat) :
    KeepsSuffixes (expressionWithin budget) ∧ KeepsSuffixes (operandWithin budget) ∧
      KeepsSuffixes (argumentsWithin budget) ∧
      (∀ left least, KeepsSuffixes (climbWithin budget left least)) ∧
      ∀ op right, KeepsSuffixes (tightenWithin budget op right) := by
  induction budget with
  | zero =>
      exact ⟨respects_throw _, respects_throw _, respects_throw _, fun _ _ => respects_throw _,
        fun _ _ => respects_throw _⟩
  | succ budget ih =>
      obtain ⟨hexpression, hoperand, harguments, hclimb, htighten⟩ := ih
      exact ⟨hoperand.bind fun left => hclimb left 0,
        keepsSuffixes_position.bind fun start => keepsSuffixes_expectToken.bind fun t =>
          keepsSuffixes_operandFrom hexpression hoperand harguments start t,
        keepsSuffixes_argumentsWithin_succ hexpression harguments,
        fun left least => keepsSuffixes_peekOperator?.bind
          (keepsSuffixes_climbFrom hoperand hclimb htighten left least),
        fun op right => keepsSuffixes_peekOperator?.bind
          (keepsSuffixes_tightenFrom hclimb htighten op right)⟩

theorem keepsSuffixes_expression : KeepsSuffixes expression :=
  (respects_get.bind fun _ => respects_pure _).bind fun budget =>
    (keepsSuffixes_withinBudget budget).1

end Parse

end OnePassSql

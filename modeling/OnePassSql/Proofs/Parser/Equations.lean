import OnePassSql.Proofs.Parser.Budget
import OnePassSql.Proofs.Alike.Operands

/-!
The parser of expressions as it reads without its step budgets: each of its parts on a budget taken
from the tokens left, and an equation for each by the others.
-/

namespace OnePassSql.Parse

open Step TokenStream

/-- Extends an operand by what binds at least as tightly as `least`. -/
def climb (left : Expr) (least : Nat) : Parse Expr := do
  climbWithin (← budget) left least

/-- Extends a right operand by what binds more tightly than `op`. -/
def tighten (op : BinaryOp) (right : Expr) : Parse Expr := do
  tightenWithin (← budget) op right

/-- Reads expressions with commas between them. -/
def arguments : Parse (List Expr) := do
  argumentsWithin (← budget)

variable {p q : Parser} {b : Nat}

/-! ## Budgets that suffice -/

theorem expressionWithin_eq (h : 4 * p.ahead.length + 2 ≤ b) :
    expressionWithin b p = expression p :=
  (budgetFree_withinBudget b).1 p _ h (Nat.add_le_add_left (by decide) _)

theorem operandWithin_eq (h : 4 * p.ahead.length + 1 ≤ b) : operandWithin b p = operand p :=
  (budgetFree_withinBudget b).2.1 p _ h (Nat.add_le_add_left (by decide) _)

theorem argumentsWithin_eq (h : 4 * p.ahead.length + 3 ≤ b) : argumentsWithin b p = arguments p :=
  (budgetFree_withinBudget b).2.2.1 p _ h (Nat.add_le_add_left (by decide) _)

theorem climbWithin_eq (h : 4 * p.ahead.length + 1 ≤ b) (left : Expr) (least : Nat) :
    climbWithin b left least p = climb left least p :=
  (budgetFree_withinBudget b).2.2.2.1 left least p _ h (Nat.add_le_add_left (by decide) _)

theorem tightenWithin_eq (h : 4 * p.ahead.length + 2 ≤ b) (op : BinaryOp) (right : Expr) :
    tightenWithin b op right p = tighten op right p :=
  (budgetFree_withinBudget b).2.2.2.2 op right p _ h (Nat.add_le_add_left (by decide) _)

/-! ## The equations -/

theorem expression_apply (p : Parser) : expression p = (operand >>= fun left => climb left 0) p := by
  change expressionWithin (4 * p.ahead.length + 3 + 1) p = _
  unfold expressionWithin
  refine bind_congr (operandWithin_eq (by omega)) fun left q h => ?_
  have hle := (movesOn_withinBudget _).2.1.length_le h
  exact climbWithin_eq (by omega) left 0

theorem climb_apply (left : Expr) (least : Nat) (p : Parser) : climb left least p = (do
    match ← peekOperator? with
    | some (op, behind) =>
      if op.precedence < least then return left
      else
        resume behind
        let operand ← operand
        let right ← tighten op operand
        climb (.binary op left right) least
    | none =>
      if (← get).suffixes then
        match ← suffix? left with
        | some e => climb e least
        | none => return left
      else return left : Parse Expr) p := by
  change climbWithin (4 * p.ahead.length + 3 + 1) left least p = _
  unfold climbWithin
  refine bind_congr rfl fun found q hop => ?_
  obtain ⟨rfl, hbehind⟩ := peekOperator?_eq_ok hop
  cases found with
  | some found =>
      obtain ⟨op, behind⟩ := found
      have hlt := (hbehind op behind rfl).2
      dsimp only
      split
      · rfl
      · refine bind_congr rfl fun _ q₁ h₁ => ?_
        cases h₁
        refine bind_congr (operandWithin_eq (by dsimp only; omega)) fun e q₂ h₂ => ?_
        have hle₂ := (movesOn_withinBudget _).2.1.length_le h₂
        dsimp only at hle₂
        refine bind_congr (tightenWithin_eq (by omega) op e) fun right q₃ h₃ => ?_
        have hle₃ := ((movesOn_withinBudget _).2.2.2.2 op e).length_le h₃
        exact climbWithin_eq (by omega) _ least
  | none =>
      refine bind_congr rfl fun state q₁ h₁ => ?_
      cases h₁
      split
      · refine bind_congr rfl fun found q₂ h₂ => ?_
        cases found with
        | none => rfl
        | some e =>
            have hlt := length_lt_of_suffix? h₂
            exact climbWithin_eq (by omega) e least
      · rfl

theorem tighten_apply (op : BinaryOp) (right : Expr) (p : Parser) : tighten op right p = (do
    match ← peekOperator? with
    | some (tighter, _) =>
      if tighter.precedence ≤ op.precedence then return right
      else
        let right ← climb right tighter.precedence
        tighten op right
    | none => return right : Parse Expr) p := by
  change tightenWithin (4 * p.ahead.length + 3 + 1) op right p = _
  unfold tightenWithin
  refine bind_congr rfl fun found q hop => ?_
  obtain ⟨rfl, -⟩ := peekOperator?_eq_ok hop
  cases found with
  | none => rfl
  | some found =>
      obtain ⟨tighter, behind⟩ := found
      dsimp only
      split
      · rfl
      · refine bind_congr (climbWithin_eq (by omega) right _) fun right' q₁ h₁ => ?_
        have hlt := length_lt_of_climbWithin hop (Nat.le_refl _) h₁
        exact tightenWithin_eq (by omega) op right'

theorem arguments_apply (p : Parser) : arguments p = (do
    let e ← expression
    if ← accept "," then
      let rest ← arguments
      return e :: rest
    else return [e] : Parse (List Expr)) p := by
  change argumentsWithin (4 * p.ahead.length + 3 + 1) p = _
  unfold argumentsWithin
  refine bind_congr (expressionWithin_eq (by omega)) fun e q h => bind_congr rfl fun more r hmore => ?_
  have hle := (movesOn_withinBudget _).1.length_le h
  cases more with
  | false => rw [if_neg Bool.false_ne_true, if_neg Bool.false_ne_true]
  | true =>
      have hlt := length_lt_of_accept hmore
      rw [if_pos rfl, if_pos rfl]
      exact bind_congr (argumentsWithin_eq (by omega)) fun _ _ _ => rfl

theorem operand_apply {first : Token} {rest : TokenStream} (h : p.ahead = .token first rest) :
    operand p = (
      if first.is "COALESCE" then do
        expect "("
        let arguments ← arguments
        expect ")"
        return .call "COALESCE" arguments
      else if first.is "NULL" then return .literal .null
      else if first.is "NOT" then do
        let operand ← operand
        return .unary .not operand
      else if first.is "(" then do
        let e ← withSuffixes true expression
        expect ")"
        return e
      else if first.is "?" then parameter first
      else if first.is "-" then do
        match ← leastInteger? first with
        | some e => return e
        | none =>
          let operand ← expression
          return .unary .negate operand
      else atom first p.position : Parse Expr) { p with ahead := rest } := by
  change operandWithin (4 * p.ahead.length + 3 + 1) p = _
  unfold operandWithin
  rw [bind_apply_ok (position_apply p), bind_apply_ok (expectToken_of_token h), h]
  rw [TokenStream.length]
  split
  · refine bind_congr rfl fun _ q hq => ?_
    have hle := (movesOn_expect _).length_le hq
    dsimp only at hle
    exact bind_congr (argumentsWithin_eq (by omega)) fun _ _ _ => rfl
  split
  · rfl
  split
  · exact bind_congr (operandWithin_eq (by dsimp only; omega)) fun _ _ _ => rfl
  split
  · refine bind_congr ?_ fun _ _ _ => rfl
    unfold withSuffixes
    rw [expressionWithin_eq (by dsimp only; omega)]
  split
  · rfl
  split
  · refine bind_congr rfl fun found q hq => ?_
    have hle := (movesOn_leastInteger? first).length_le hq
    dsimp only at hle
    cases found with
    | some e => rfl
    | none => exact bind_congr (expressionWithin_eq (by omega)) fun _ _ _ => rfl
  · rfl

/-! ## Operands by their first token -/

section Operands

variable {first : Token} {rest : TokenStream}

theorem is_eq_of_is {word : String} (h : first.is word = true) (other : String) :
    first.is other = Text.sameWord word other :=
  Text.sameWord_congr_left h other

theorem operand_of_coalesce (h : p.ahead = .token first rest) (hword : first.is "COALESCE" = true) :
    operand p = (do
      expect "("
      let arguments ← arguments
      expect ")"
      return .call "COALESCE" arguments : Parse Expr) { p with ahead := rest } := by
  rw [operand_apply h, if_pos hword]

theorem operand_of_null (h : p.ahead = .token first rest) (hword : first.is "NULL" = true) :
    operand p = .ok (.literal .null) { p with ahead := rest } := by
  have hcoalesce : ¬first.is "COALESCE" = true := by rw [is_eq_of_is hword]; decide
  rw [operand_apply h, if_neg hcoalesce, if_pos hword]
  rfl

theorem operand_of_not (h : p.ahead = .token first rest) (hword : first.is "NOT" = true) :
    operand p = (operand >>= fun e => return .unary .not e : Parse Expr)
      { p with ahead := rest } := by
  have hcoalesce : ¬first.is "COALESCE" = true := by rw [is_eq_of_is hword]; decide
  have hnull : ¬first.is "NULL" = true := by rw [is_eq_of_is hword]; decide
  rw [operand_apply h, if_neg hcoalesce, if_neg hnull, if_pos hword]

theorem operand_of_parenthesis (h : p.ahead = .token first rest) (hword : first.is "(" = true) :
    operand p = (do
      let e ← withSuffixes true expression
      expect ")"
      return e : Parse Expr) { p with ahead := rest } := by
  have hcoalesce : ¬first.is "COALESCE" = true := by rw [is_eq_of_is hword]; decide
  have hnull : ¬first.is "NULL" = true := by rw [is_eq_of_is hword]; decide
  have hnot : ¬first.is "NOT" = true := by rw [is_eq_of_is hword]; decide
  rw [operand_apply h, if_neg hcoalesce, if_neg hnull, if_neg hnot, if_pos hword]

theorem exists_token_of_operand {e : Expr} (h : operand p = .ok e q) :
    ∃ first rest, p.ahead = .token first rest := by
  change operandWithin (4 * p.ahead.length + 3 + 1) p = _ at h
  unfold operandWithin at h
  obtain ⟨_, _, hposition, h⟩ := bind_eq_ok.mp h
  cases hposition
  obtain ⟨first, _, htoken, -⟩ := bind_eq_ok.mp h
  obtain ⟨rest, hahead, -⟩ := expectToken_eq_ok htoken
  exact ⟨first, rest, hahead⟩

theorem operand_of_fault {ch : Char} {n : Nat} (h : p.ahead = .fault ch n) :
    operand p = .error (.lexical ch n) p := by
  change operandWithin (4 * p.ahead.length + 3 + 1) p = _
  unfold operandWithin
  rw [bind_apply_ok (position_apply p)]
  exact bind_eq_error.mpr (.inl (expectToken_of_fault h))

theorem operand_of_sign (h : p.ahead = .token first rest) (hword : first.is "-" = true) :
    operand p = (do
      match ← leastInteger? first with
      | some e => return e
      | none =>
        let operand ← expression
        return .unary .negate operand : Parse Expr) { p with ahead := rest } := by
  have hcoalesce : ¬first.is "COALESCE" = true := by rw [is_eq_of_is hword]; decide
  have hnull : ¬first.is "NULL" = true := by rw [is_eq_of_is hword]; decide
  have hnot : ¬first.is "NOT" = true := by rw [is_eq_of_is hword]; decide
  have hopen : ¬first.is "(" = true := by rw [is_eq_of_is hword]; decide
  have hquestion : ¬first.is "?" = true := by rw [is_eq_of_is hword]; decide
  rw [operand_apply h, if_neg hcoalesce, if_neg hnull, if_neg hnot, if_neg hopen,
    if_neg hquestion, if_pos hword]

/-- A minus that is not the sign of the least integer covers everything that follows. -/
theorem operand_of_minus (h : p.ahead = .token first rest) (hword : first.is "-" = true)
    (hleast : ∀ t behind, rest = .token t behind → ¬SpellsLeast first t) :
    operand p = (expression >>= fun e => return .unary .negate e : Parse Expr)
      { p with ahead := rest } := by
  rw [operand_of_sign h hword]
  cases rest with
  | token t behind =>
      rw [bind_apply_ok (leastInteger?_of_not rfl (hleast t behind rfl))]
  | done n => rw [bind_apply_ok (leastInteger?_of_done rfl first)]
  | fault ch n =>
      have hexpression : expression { p with ahead := .fault ch n }
          = .error (.lexical ch n) { p with ahead := .fault ch n } := by
        rw [expression_apply]
        exact bind_eq_error.mpr (.inl (operand_of_fault rfl))
      have hminus : leastInteger? first { p with ahead := .fault ch n }
          = .error (.lexical ch n) { p with ahead := .fault ch n } :=
        bind_eq_error.mpr (.inl (peek_of_fault rfl))
      rw [bind_eq_error.mpr (.inl hminus), bind_eq_error.mpr (.inl hexpression)]

/-- The words and signs that start an operand of their own. -/
def operandStarts : List String := ["COALESCE", "NULL", "NOT", "(", "?", "-"]

theorem operand_of_atom (h : p.ahead = .token first rest)
    (hword : ∀ word ∈ operandStarts, first.is word = false) :
    operand p = atom first p.position { p with ahead := rest } := by
  simp only [operandStarts, List.forall_mem_cons] at hword
  obtain ⟨hcoalesce, hnull, hnot, hopen, hquestion, hminus, -⟩ := hword
  rw [operand_apply h]
  simp [hcoalesce, hnull, hnot, hopen, hquestion, hminus]

end Operands

/-! ## Climbing step by step -/

section Climbing

variable {left right e : Expr} {least : Nat} {op tighter : BinaryOp} {behind : TokenStream}

/-- The operator is too loose. -/
theorem climb_of_lt (hop : peekOperator? p = .ok (some (op, behind)) p)
    (h : op.precedence < least) : climb left least p = .ok left p := by
  rw [climb_apply, bind_apply_ok hop]
  dsimp only
  rw [if_pos h]
  rfl

/-- The operator is taken with its right operand, and climbing goes on. -/
theorem climb_of_le (hop : peekOperator? p = .ok (some (op, behind)) p)
    (h : least ≤ op.precedence) : climb left least p
      = (operand >>= fun e => tighten op e >>= fun right => climb (.binary op left right) least)
          { p with ahead := behind } := by
  rw [climb_apply, bind_apply_ok hop]
  dsimp only
  rw [if_neg (Nat.not_lt.mpr h)]
  rfl

/-- Nothing that an expression goes on with is next. -/
def Stops (p : Parser) : Prop :=
  peekOperator? p = .ok none p ∧ (p.suffixes = true → ∀ e, suffix? e p = .ok none p)

theorem climb_of_stops (h : Stops p) (left : Expr) (least : Nat) :
    climb left least p = .ok left p := by
  rw [climb_apply, bind_apply_ok h.1]
  dsimp only
  rw [bind_apply_ok (get_apply p)]
  split
  next hsuffixes =>
    rw [bind_apply_ok (h.2 hsuffixes left)]
    rfl
  next => rfl

/-- A form that stands behind the operand is taken, and climbing goes on. -/
theorem climb_of_suffix (hop : peekOperator? p = .ok none p) (hsuffixes : p.suffixes = true)
    (h : suffix? left p = .ok (some e) q) (least : Nat) :
    climb left least p = climb e least q := by
  rw [climb_apply, bind_apply_ok hop]
  dsimp only
  rw [bind_apply_ok (get_apply p), if_pos hsuffixes, bind_apply_ok h]

theorem tighten_of_le (hop : peekOperator? p = .ok (some (tighter, behind)) p)
    (h : tighter.precedence ≤ op.precedence) : tighten op right p = .ok right p := by
  rw [tighten_apply, bind_apply_ok hop]
  dsimp only
  rw [if_pos h]
  rfl

theorem tighten_of_lt (hop : peekOperator? p = .ok (some (tighter, behind)) p)
    (h : op.precedence < tighter.precedence) : tighten op right p
      = (climb right tighter.precedence >>= fun right => tighten op right) p := by
  rw [tighten_apply, bind_apply_ok hop]
  dsimp only
  rw [if_neg (Nat.not_le.mpr h)]

theorem tighten_of_none (hop : peekOperator? p = .ok none p) : tighten op right p = .ok right p := by
  rw [tighten_apply, bind_apply_ok hop]
  rfl

end Climbing

/-! ## Where an expression ends -/

theorem pairedSigns_of_is {t : Token} {word : String} (h : t.is word = true) :
    pairedSigns t = pairedSigns ⟨.word, word, 0⟩ := by
  have hsame : ∀ sign, t.is sign = (⟨.word, word, 0⟩ : Token).is sign := is_eq_of_is h
  simp only [pairedSigns, hsame]

theorem peekOperator?_of_is {t : Token} {rest : TokenStream} {word : String}
    (h : p.ahead = .token t rest) (his : t.is word = true)
    (hpaired : pairedSigns ⟨.word, word, 0⟩ = [])
    (hsingle : meaning? singleSigns ⟨.word, word, 0⟩ = none) : peekOperator? p = .ok none p := by
  rw [peekOperator?_of_single h ((pairedSigns_of_is his).trans hpaired), meaning?_of_is his, hsingle]
  rfl

/-- The words that can stand behind an operand are not there. -/
theorem suffix?_of_acceptOne? (h : acceptOne? [("NOT", Suffix.negated), ("NOTNULL", .notNull),
    ("ISNULL", .isNull), ("IN", .membership)] p = .ok none p) (e : Expr) :
    suffix? e p = .ok none p := by
  rw [suffix?, bind_apply_ok h]
  rfl

/-- No form is taken only where none of the words is next. -/
theorem acceptOne?_of_suffix?_eq_none {e : Expr} (h : suffix? e p = .ok none q) :
    q = p ∧ acceptOne? [("NOT", Suffix.negated), ("NOTNULL", .notNull), ("ISNULL", .isNull),
      ("IN", .membership)] p = .ok none p := by
  obtain ⟨found, r, hfound, hform⟩ := bind_eq_ok.mp h
  cases found with
  | none =>
      cases hform
      rcases acceptOne?_eq_ok hfound with ⟨-, rfl⟩ | ⟨_, _, _, hsome, -⟩
      · exact ⟨rfl, hfound⟩
      · cases hsome
  | some form =>
      exfalso
      cases form with
      | notNull => cases hform
      | isNull => cases hform
      | membership =>
          obtain ⟨_, _, -, hend⟩ := bind_eq_ok.mp hform
          cases hend
      | negated =>
          obtain ⟨isNull, _, -, hend⟩ := bind_eq_ok.mp hform
          cases isNull with
          | true => cases hend
          | false =>
              obtain ⟨_, _, -, hend⟩ := bind_eq_ok.mp hend
              cases hend

/-- Whether a form stands behind an operand does not hang on the operand. -/
theorem suffix?_eq_none {e : Expr} (h : suffix? e p = .ok none q) :
    q = p ∧ ∀ e, suffix? e p = .ok none p := by
  obtain ⟨rfl, hnone⟩ := acceptOne?_of_suffix?_eq_none h
  exact ⟨rfl, suffix?_of_acceptOne? hnone⟩

/-- Climbing from the loosest operators goes on as long as there is something to go on with. -/
theorem stops_of_climbWithin {left e : Expr} (h : climbWithin b left 0 p = .ok e q) : Stops q := by
  induction b generalizing left p with
  | zero => cases h
  | succ b ih =>
      unfold climbWithin at h
      obtain ⟨found, r, hop, h⟩ := bind_eq_ok.mp h
      obtain ⟨rfl, -⟩ := peekOperator?_eq_ok hop
      cases found with
      | some found =>
          dsimp only at h
          rw [if_neg (Nat.not_lt_zero _)] at h
          obtain ⟨_, _, -, h⟩ := bind_eq_ok.mp h
          obtain ⟨_, _, -, h⟩ := bind_eq_ok.mp h
          obtain ⟨_, _, -, h⟩ := bind_eq_ok.mp h
          exact ih h
      | none =>
          dsimp only at h
          rw [bind_apply_ok (get_apply r)] at h
          split at h
          next hsuffixes =>
            obtain ⟨suffix, r', hsuffix, h⟩ := bind_eq_ok.mp h
            cases suffix with
            | some e' => exact ih h
            | none =>
                cases h
                obtain ⟨rfl, hnone⟩ := suffix?_eq_none hsuffix
                exact ⟨hop, fun _ => hnone⟩
          next hsuffixes =>
            cases h
            exact ⟨hop, fun htrue => absurd htrue hsuffixes⟩

/-- Behind an expression nothing stands that it goes on with. -/
theorem stops_of_expression {e : Expr} (h : expression p = .ok e q) : Stops q := by
  rw [expression_apply] at h
  obtain ⟨left, r, -, hclimb⟩ := bind_eq_ok.mp h
  exact stops_of_climbWithin hclimb

end OnePassSql.Parse

import OnePassSql.Proofs.Expr.Typing
import OnePassSql.Proofs.Value.Arithmetic

/-!
Expressions of integer literals and arithmetic alone. Where such an expression evaluates to an integer,
each binary operator keeps that integer the value of the expression over all integers. A minus sign
does not, before the least integer, and it alone is what makes a value wrong.
-/

namespace OnePassSql

/-- The binary operators of arithmetic. -/
inductive ArithmeticOp where
  | add | sub | mul | div | mod

namespace ArithmeticOp

/-- The operator as one of expressions. -/
def operator : ArithmeticOp → BinaryOp
  | add => .add
  | sub => .sub
  | mul => .mul
  | div => .div
  | mod => .mod

/-- The operator over all integers: toward zero the quotient, with the sign of the dividend the
remainder, and neither by zero. -/
def result? : ArithmeticOp → Int → Int → Option Int
  | add => fun m n => some (m + n)
  | sub => fun m n => some (m - n)
  | mul => fun m n => some (m * n)
  | div => Value.divided? Int.tdiv
  | mod => Value.divided? Int.tmod

variable (op : ArithmeticOp)

theorem operator_ne_concat : op.operator ≠ .concat := by cases op <;> decide

theorem apply_eq_integer_iff {v w : Value} {r : Int64} :
    op.operator.apply v w = .ok (.integer r) ↔ Value.ExactOn op.result? v w r := by
  cases op with
  | add | sub | mul => exact Value.compute_eq_integer_iff
  | div => exact Value.div_eq_integer_iff
  | mod => exact Value.mod_eq_integer_iff

end ArithmeticOp

/-- An expression of integer literals, minus signs and arithmetic operators. -/
inductive IntegerTree where
  | literal (n : Int64)
  | negate (t : IntegerTree)
  | binary (op : ArithmeticOp) (l r : IntegerTree)

namespace IntegerTree

/-- The tree as an expression. -/
def expr : IntegerTree → Expr
  | literal n => .literal (.integer n)
  | negate t => .unary .negate t.expr
  | binary op l r => .binary op.operator l.expr r.expr

/-- The value over all integers, unless something is divided by zero. -/
def value? : IntegerTree → Option Int
  | literal n => some n.toInt
  | negate t => t.value?.map (- ·)
  | binary op l r => do
    let m ← l.value?
    let n ← r.value?
    op.result? m n

/-- The tree and all trees within it. -/
def subtrees : IntegerTree → List IntegerTree
  | literal n => [literal n]
  | negate t => negate t :: t.subtrees
  | binary op l r => binary op l r :: (l.subtrees ++ r.subtrees)

theorem mem_subtrees_self (t : IntegerTree) : t ∈ t.subtrees := by
  cases t <;> exact List.mem_cons_self

section Evaluation

variable {scope : Scope} {t l r : IntegerTree} {v : Value}

/-- If the tree evaluates to an integer, then to its value over all integers. -/
def Exact (scope : Scope) (t : IntegerTree) : Prop :=
  ∀ n : Int64, t.expr.eval scope = .ok (.integer n) → t.value? = some n.toInt

/-- The tree is a minus sign before a tree that evaluates to the least integer. -/
def NegatesLeast (scope : Scope) (t : IntegerTree) : Prop :=
  ∃ s, t = negate s ∧ s.expr.eval scope = .ok (.integer Int64.minValue)

theorem nullOrNumeric_eval (h : t.expr.eval scope = .ok v) : v.NullOrNumeric := by
  induction t generalizing v with
  | literal n =>
      cases h
      exact Value.nullOrNumeric_integer n
  | negate t ih =>
      obtain ⟨w, hw, hnegate⟩ := Result.bind_eq_ok.mp h
      exact Value.nullOrNumeric_negate (ih hw) hnegate
  | binary op l r _ _ =>
      obtain ⟨x, -, hrest⟩ := Result.bind_eq_ok.mp h
      obtain ⟨y, -, happly⟩ := Result.bind_eq_ok.mp hrest
      exact BinaryOp.nullOrNumeric_apply op.operator_ne_concat happly

theorem eval_negate_eq_integer_iff {r : Int64} :
    t.negate.expr.eval scope = .ok (.integer r) ↔
      ∃ n : Int64, t.expr.eval scope = .ok (.integer n) ∧ -n = r := by
  constructor
  · intro h
    obtain ⟨v, hv, hnegate⟩ := Result.bind_eq_ok.mp h
    -- a text or a blob would have an integer as its negation as well
    rcases nullOrNumeric_eval hv with rfl | hnumeric
    · cases hnegate
    · cases v <;> cases hnumeric <;> cases hnegate
      exact ⟨_, hv, rfl⟩
  · rintro ⟨n, hn, rfl⟩
    exact Result.bind_eq_ok.mpr ⟨_, hn, rfl⟩

theorem eval_binary_eq_integer_iff {op : ArithmeticOp} {i : Int64} :
    (binary op l r).expr.eval scope = .ok (.integer i) ↔
      ∃ m n : Int64, l.expr.eval scope = .ok (.integer m) ∧ r.expr.eval scope = .ok (.integer n) ∧
        op.result? m.toInt n.toInt = some i.toInt := by
  constructor
  · intro h
    obtain ⟨v, hv, hrest⟩ := Result.bind_eq_ok.mp h
    obtain ⟨w, hw, happly⟩ := Result.bind_eq_ok.mp hrest
    obtain ⟨m, n, rfl, rfl, hexact⟩ := op.apply_eq_integer_iff.mp happly
    exact ⟨m, n, hv, hw, hexact⟩
  · rintro ⟨m, n, hm, hn, hexact⟩
    have happly := op.apply_eq_integer_iff.mpr ⟨m, n, rfl, rfl, hexact⟩
    exact (Expr.eval_binary hm hn op.operator).trans happly

/-! ## One node -/

theorem exact_literal (n : Int64) : (literal n).Exact scope := by
  intro r h
  cases h
  rfl

theorem exact_binary {op : ArithmeticOp} (hl : l.Exact scope) (hr : r.Exact scope) :
    (binary op l r).Exact scope := by
  intro i h
  obtain ⟨m, n, hm, hn, hexact⟩ := eval_binary_eq_integer_iff.mp h
  rw [value?, hl m hm, hr n hn]
  exact hexact

/-- A minus sign before an exact tree is exact unless that tree evaluates to the least integer. -/
theorem exact_negate_iff (h : t.Exact scope) :
    t.negate.Exact scope ↔ ¬t.negate.NegatesLeast scope := by
  constructor
  · rintro hnegate ⟨s, hs, hleast⟩
    cases hs
    have hvalue := hnegate _ (eval_negate_eq_integer_iff.mpr ⟨_, hleast, rfl⟩)
    rw [value?, h _ hleast] at hvalue
    exact absurd hvalue (by decide)
  · intro hleast r hr
    obtain ⟨n, hn, rfl⟩ := eval_negate_eq_integer_iff.mp hr
    have hne : n ≠ Int64.minValue := by
      rintro rfl
      exact hleast ⟨t, rfl, hn⟩
    rw [value?, h n hn, Option.map_some, Value.toInt_neg_of_ne hne]

/-! ## All nodes -/

/-- All trees within the tree, itself among them, are exact if and only if no minus sign stands before
one that evaluates to the least integer. -/
theorem exact_subtrees_iff (scope : Scope) (t : IntegerTree) :
    (∀ s ∈ t.subtrees, s.Exact scope) ↔ ∀ s ∈ t.subtrees, ¬s.NegatesLeast scope := by
  induction t with
  | literal n =>
      rw [subtrees, List.forall_mem_singleton, List.forall_mem_singleton]
      exact iff_of_true (exact_literal n) nofun
  | negate t ih =>
      rw [subtrees, List.forall_mem_cons, List.forall_mem_cons, ih]
      refine and_congr_left fun hwithin => exact_negate_iff ?_
      exact ih.mpr hwithin t t.mem_subtrees_self
  | binary op l r ihl ihr =>
      rw [subtrees, List.forall_mem_cons, List.forall_mem_cons, List.forall_mem_append,
        List.forall_mem_append, ihl, ihr]
      refine and_congr_left fun ⟨hl, hr⟩ => iff_of_true ?_ nofun
      exact exact_binary (ihl.mpr hl l l.mem_subtrees_self) (ihr.mpr hr r r.mem_subtrees_self)

/-- The least integer negated evaluates to itself. -/
theorem not_forall_exact : ¬∀ (scope : Scope) (t : IntegerTree), t.Exact scope := by
  intro h
  have hvalue := h .none (negate (literal Int64.minValue)) Int64.minValue rfl
  exact absurd hvalue (by decide)

end Evaluation

end IntegerTree

end OnePassSql

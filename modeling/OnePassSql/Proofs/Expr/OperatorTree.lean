import OnePassSql.Expr.Basic

/-!
Chains of operands with operators between them, and the trees that they are read as. The precedences
leave only one tree for a chain: its root is the last of the operators that bind most loosely.
-/

namespace OnePassSql

/-- Operators over operands. What an operand holds, in parentheses say, is no part of the tree. -/
inductive OperatorTree where
  | operand (e : Expr)
  | node (op : BinaryOp) (left right : OperatorTree)

namespace OperatorTree

/-- The expression. -/
def toExpr : OperatorTree → Expr
  | operand e => e
  | node op l r => .binary op l.toExpr r.toExpr

/-- The operand that is written first. -/
def first : OperatorTree → Expr
  | operand e => e
  | node _ l _ => l.first

/-- What is written behind the first operand: operators, and behind each of them an operand. -/
def rest : OperatorTree → List (BinaryOp × Expr)
  | operand _ => []
  | node op l r => l.rest ++ (op, r.first) :: r.rest

/-- A word of a chain. -/
inductive Item where
  | operand (e : Expr)
  | operator (op : BinaryOp)

/-- The operands and operators from left to right. -/
def reading : OperatorTree → List Item
  | operand e => [.operand e]
  | node op l r => l.reading ++ .operator op :: r.reading

/-- The operator at the root, if there is one, binds at least as tightly as `least`. -/
def AtLeast (least : Nat) : OperatorTree → Prop
  | operand _ => True
  | node op _ _ => least ≤ op.precedence

/-- To the left of an operator everything binds at least as tightly as the operator, to its right
everything binds more tightly. -/
def WellBound : OperatorTree → Prop
  | operand _ => True
  | node op l r => l.AtLeast op.precedence ∧ r.AtLeast (op.precedence + 1) ∧ l.WellBound ∧ r.WellBound

variable {t u : OperatorTree} {least : Nat}

theorem AtLeast.mono {lower : Nat} (h : t.AtLeast least) (hle : lower ≤ least) :
    t.AtLeast lower := by
  cases t with
  | operand e => trivial
  | node op l r => exact Nat.le_trans hle h

/-- The root of a tree binds most loosely. -/
theorem WellBound.le_of_mem (h : t.WellBound) (hleast : t.AtLeast least) :
    ∀ link ∈ t.rest, least ≤ link.1.precedence := by
  induction t generalizing least with
  | operand e => exact fun link hlink => nomatch hlink
  | node op l r ihl ihr =>
      obtain ⟨hleft, hright, hl, hr⟩ := h
      intro link hlink
      rcases List.mem_append.mp hlink with hinLeft | hbehind
      · exact ihl hl (hleft.mono hleast) link hinLeft
      rcases List.mem_cons.mp hbehind with rfl | hinRight
      · exact hleast
      · exact ihr hr (hright.mono (Nat.le_succ_of_le hleast)) link hinRight

/-- Of two operators in a list each can be the root only if they stand at the same place. -/
theorem eq_of_append_eq {α : Type} {before before' behind behind' : List (BinaryOp × α)}
    {op op' : BinaryOp} {a a' : α}
    (h : before ++ (op, a) :: behind = before' ++ (op', a') :: behind')
    (hbefore : ∀ link ∈ before, op.precedence ≤ link.1.precedence)
    (hbehind : ∀ link ∈ behind, op.precedence + 1 ≤ link.1.precedence)
    (hbefore' : ∀ link ∈ before', op'.precedence ≤ link.1.precedence)
    (hbehind' : ∀ link ∈ behind', op'.precedence + 1 ≤ link.1.precedence) :
    before = before' ∧ op = op' ∧ a = a' ∧ behind = behind' := by
  rcases List.append_eq_append_iff.mp h with ⟨between, rfl, hrest⟩ | ⟨between, rfl, hrest⟩
  · cases between with
    | nil =>
        simp only [List.nil_append, List.cons.injEq, Prod.mk.injEq] at hrest
        exact ⟨(List.append_nil before).symm, hrest.1.1, hrest.1.2, hrest.2⟩
    | cons link between =>
        -- the second root stands behind the first, and the first before the second
        obtain ⟨rfl, rfl⟩ := List.cons.inj hrest
        have hloose := hbefore' (op, a) (by simp)
        have htight := hbehind (op', a') (by simp)
        dsimp only at hloose htight
        omega
  · cases between with
    | nil =>
        simp only [List.nil_append, List.cons.injEq, Prod.mk.injEq] at hrest
        exact ⟨List.append_nil before', hrest.1.1.symm, hrest.1.2.symm, hrest.2.symm⟩
    | cons link between =>
        obtain ⟨rfl, rfl⟩ := List.cons.inj hrest
        have hloose := hbefore (op', a') (by simp)
        have htight := hbehind' (op, a) (by simp)
        dsimp only at hloose htight
        omega

theorem WellBound.eq_of_first_of_rest (ht : t.WellBound) (hu : u.WellBound)
    (hfirst : t.first = u.first) (hrest : t.rest = u.rest) : t = u := by
  induction t generalizing u with
  | operand e =>
      cases u with
      | operand e' => exact congrArg operand hfirst
      | node op l r => simp [rest] at hrest
  | node op l r ihl ihr =>
      cases u with
      | operand e => simp [rest] at hrest
      | node op' l' r' =>
          obtain ⟨hleft, hright, hl, hr⟩ := ht
          obtain ⟨hleft', hright', hl', hr'⟩ := hu
          obtain ⟨hbefore, rfl, ha, hbehind⟩ := eq_of_append_eq hrest (hl.le_of_mem hleft)
            (hr.le_of_mem hright) (hl'.le_of_mem hleft') (hr'.le_of_mem hright')
          rw [ihl hl hl' hfirst hbefore, ihr hr hr' ha hbehind]

/-- What is read behind the first operand. -/
def readingBehind (links : List (BinaryOp × Expr)) : List Item :=
  links.flatMap fun link => [.operator link.1, .operand link.2]

theorem reading_eq (t : OperatorTree) : t.reading = .operand t.first :: readingBehind t.rest := by
  induction t with
  | operand e => rfl
  | node op l r ihl ihr =>
      rw [reading, ihl, ihr, rest, first, readingBehind, readingBehind, readingBehind,
        List.flatMap_append, List.flatMap_cons]
      rfl

theorem readingBehind_injective {links links' : List (BinaryOp × Expr)}
    (h : readingBehind links = readingBehind links') : links = links' := by
  induction links generalizing links' with
  | nil =>
      cases links' with
      | nil => rfl
      | cons link' links' => simp [readingBehind] at h
  | cons link links ih =>
      cases links' with
      | nil => simp [readingBehind] at h
      | cons link' links' =>
          simp only [readingBehind, List.flatMap_cons, List.cons_append, List.nil_append,
            List.cons.injEq, Item.operator.injEq, Item.operand.injEq] at h
          obtain ⟨hop, he, hrest⟩ := h
          rw [Prod.ext hop he, ih hrest]

/-- A chain is read as one tree only. -/
theorem WellBound.eq_of_reading (ht : t.WellBound) (hu : u.WellBound)
    (h : t.reading = u.reading) : t = u := by
  rw [reading_eq, reading_eq, List.cons.injEq, Item.operand.injEq] at h
  exact ht.eq_of_first_of_rest hu h.1 (readingBehind_injective h.2)

/-! ## The end of a tree -/

/-- The expression with something done to the part at its end: the last operator with what it binds,
or the operand if there is no operator. -/
def onLast (f : Expr → Expr) : OperatorTree → Expr
  | operand e => f e
  | node op l (operand e) => f (.binary op l.toExpr e)
  | node op l (node op' l' r) => .binary op l.toExpr (onLast f (node op' l' r))

theorem onLast_node {f : Expr → Expr} {r : OperatorTree} (h : r.rest ≠ []) (op : BinaryOp)
    (l : OperatorTree) : (node op l r).onLast f = .binary op l.toExpr (r.onLast f) := by
  cases r with
  | operand e => exact absurd rfl h
  | node op' l' r => rfl

/-- The part at the end is the whole of it only if no operator binds less tightly than the last one.
-/
theorem WellBound.onLast_eq_iff {f : Expr → Expr} (h : t.WellBound)
    (hf : ∀ e op e₁ e₂, f e ≠ .binary op e₁ e₂) :
    t.onLast f = f t.toExpr ↔ ∀ last ∈ (t.rest.map Prod.fst).getLast?,
      ∀ op ∈ t.rest.map Prod.fst, last.precedence ≤ op.precedence := by
  match t, h with
  | operand e, _ => simp [onLast, toExpr, rest]
  | node op l (operand e), ⟨hleft, _, hl, _⟩ =>
      refine iff_of_true rfl fun last hlast op' hop' => ?_
      rw [rest, rest, List.map_append, List.map_cons, List.map_nil, List.getLast?_concat,
        Option.mem_some_iff] at hlast
      subst hlast
      obtain ⟨link, hlink, rfl⟩ := List.mem_map.mp hop'
      rcases List.mem_append.mp hlink with hinLeft | hroot
      · exact hl.le_of_mem hleft link hinLeft
      · exact Nat.le_of_eq (by rw [List.mem_singleton.mp hroot])
  | node op l (node op' l' r), ⟨_, hright, _, hr⟩ =>
      refine iff_of_false (fun heq => hf _ _ _ _ heq.symm) fun hloosest => ?_
      -- the last operator is in the right part, and binds more tightly than the root
      have hrest : (node op' l' r).rest ≠ [] := by simp [rest]
      have hlast := List.getLast?_eq_some_getLast hrest
      have hend : ((node op l (node op' l' r)).rest.map Prod.fst).getLast?
          = some ((node op' l' r).rest.getLast hrest).1 := by
        rw [rest, List.getLast?_map, List.getLast?_append, List.getLast?_cons, hlast]
        rfl
      have htight := hr.le_of_mem hright _ (List.getLast_mem hrest)
      have hloose := hloosest _ hend op (by simp [rest])
      omega

end OperatorTree

end OnePassSql

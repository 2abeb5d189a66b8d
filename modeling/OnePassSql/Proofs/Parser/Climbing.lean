import OnePassSql.Proofs.Expr.OperatorTree
import OnePassSql.Proofs.Parser.Equations

/-!
Precedence climbing. Both loops extend a tree by the links of a chain that are ahead, and stop before
an operator that is too loose for them; so what they build is bound well, and nothing is passed over.
-/

namespace OnePassSql.Parse

open Step

/-- Operators with their operands, as the chain goes on from the first state to the second. The
operands are taken as they are once the bound values are in them. -/
inductive Behind (b : Bindings) : Parser → List (BinaryOp × Expr) → Parser → Prop where
  | nil (p : Parser) : Behind b p [] p
  | cons {p q r : Parser} {op : BinaryOp} {behind : TokenStream} {e : Expr}
      {links : List (BinaryOp × Expr)} :
      peekOperator? p = .ok (some (op, behind)) p → operand { p with ahead := behind } = .ok e q →
      Behind b q links r → Behind b p ((op, e.bind b) :: links) r

/-- The rest of a chain: operators with their operands, until nothing follows or there is a fault,
in the operand of a last operator or while looking for an operator. -/
inductive Trail (b : Bindings) :
    Parser → List (BinaryOp × Expr) → EStateM.Result Fault Parser Unit → Prop where
  | stops {p : Parser} : Stops p → Trail b p [] (.ok () p)
  | unseen {p r : Parser} {f : Fault} :
      peekOperator? p = .error f r → Trail b p [] (.error f r)
  | faults {p r : Parser} {op : BinaryOp} {behind : TokenStream} {f : Fault} :
      peekOperator? p = .ok (some (op, behind)) p →
      operand { p with ahead := behind } = .error f r → Trail b p [] (.error f r)
  | link {p q : Parser} {op : BinaryOp} {behind : TokenStream} {e : Expr}
      {links : List (BinaryOp × Expr)} {out : EStateM.Result Fault Parser Unit} :
      peekOperator? p = .ok (some (op, behind)) p →
      operand { p with ahead := behind } = .ok e q → Trail b q links out →
      Trail b p ((op, e.bind b) :: links) out

/-- If an operator is next, its precedence is as said. -/
def NextOperator (P : Nat → Prop) (p : Parser) : Prop :=
  ∀ op behind, peekOperator? p = .ok (some (op, behind)) p → P op.precedence

/-- No operator is next that binds at least as tightly as `least`, and looking for it meets no
fault. -/
structure StopsBelow (least : Nat) (p : Parser) : Prop where
  seen : ∃ found, peekOperator? p = .ok found p
  next : NextOperator (· < least) p

/-- The tree holds the expression, is bound well and not too loosely, and can be the left side of
the operator that is next. -/
structure Grown (b : Bindings) (least : Nat) (tree : OperatorTree) (e : Expr) (p : Parser) :
    Prop where
  holds : e.bind b = tree.toExpr
  wellBound : tree.WellBound
  atLeast : tree.AtLeast least
  next : NextOperator tree.AtLeast p

/-- From `p` on the tree has been extended, up to `q`, by links of the chain. -/
structure Extended (b : Bindings) (tree : OperatorTree) (p : Parser)
    (links : List (BinaryOp × Expr)) (out : EStateM.Result Fault Parser Unit)
    (tree' : OperatorTree) (q : Parser) (left : List (BinaryOp × Expr)) : Prop where
  trail : Trail b q left out
  first : tree'.first = tree.first
  rest : ∃ taken, tree'.rest = tree.rest ++ taken ∧ links = taken ++ left
  moved : q = p ∨ left.length < links.length

/-- The run extends the tree by links of the chain and stops before an operator below `least`, or it
meets the fault that the chain ends with. -/
def Extends (b : Bindings) (least : Nat) (tree : OperatorTree) (p : Parser)
    (links : List (BinaryOp × Expr)) (out : EStateM.Result Fault Parser Unit)
    (run : EStateM.Result Fault Parser Expr) : Prop :=
  (∃ f r, out = .error f r ∧ run = .error f r) ∨
    ∃ e q tree' left, run = .ok e q ∧ Grown b least tree' e q ∧
      Extended b tree p links out tree' q left ∧ StopsBelow least q

section

variable {b : Bindings} {p q : Parser} {links left : List (BinaryOp × Expr)}
  {out : EStateM.Result Fault Parser Unit} {tree tree' : OperatorTree} {least : Nat} {e : Expr}

theorem Behind.trail (h : Behind b p links q) (hq : Trail b q [] out) : Trail b p links out := by
  induction h with
  | nil p => exact hq
  | cons hop hoperand _ ih => exact .link hop hoperand (ih hq)

theorem Extended.refl (h : Trail b p links out) (tree : OperatorTree) :
    Extended b tree p links out tree p links :=
  ⟨h, rfl, ⟨[], (List.append_nil _).symm, rfl⟩, .inl rfl⟩

/-- A run that goes on where another one stopped, with shorter a chain. -/
theorem Extends.of_extended {least' : Nat} {run : EStateM.Result Fault Parser Expr}
    (h : Extended b tree p links out tree' q left) (hshorter : left.length < links.length)
    (hrun : Extends b least' tree' q left out run) : Extends b least' tree p links out run := by
  rcases hrun with hfault | ⟨e, r, tree'', left', hok, hgrown, hextended, hnext⟩
  · exact .inl hfault
  · obtain ⟨taken, htaken, hlinks⟩ := h.rest
    obtain ⟨taken', htaken', hleft⟩ := hextended.rest
    refine .inr ⟨e, r, tree'', left', hok, hgrown, ⟨hextended.trail, ?_, ?_, ?_⟩, hnext⟩
    · exact hextended.first.trans h.first
    · refine ⟨taken ++ taken', ?_, ?_⟩
      · rw [htaken', htaken, List.append_assoc]
      · rw [hlinks, hleft, List.append_assoc]
    · refine .inr (Nat.lt_of_le_of_lt ?_ hshorter)
      rw [hleft, List.length_append]
      exact Nat.le_add_left _ _

/-- A run that stops at once. -/
theorem Extends.here (htrail : Trail b p links out) (hgrown : Grown b least tree e p)
    (hnext : StopsBelow least p) : Extends b least tree p links out (.ok e p) :=
  .inr ⟨e, p, tree, links, rfl, hgrown, .refl htrail tree, hnext⟩

theorem stopsBelow_of_none (h : peekOperator? p = .ok none p) : StopsBelow least p := by
  refine ⟨⟨none, h⟩, fun op behind hop => ?_⟩
  rw [h] at hop
  cases hop

theorem stopsBelow_of_lt {op : BinaryOp} {behind : TokenStream}
    (hop : peekOperator? p = .ok (some (op, behind)) p) (h : op.precedence < least) :
    StopsBelow least p := by
  refine ⟨⟨_, hop⟩, fun op' behind' hop' => ?_⟩
  rw [hop] at hop'
  cases hop'
  exact h

end

/-- On chains of `n` links climbing extends what it is given. -/
def ClimbExtends (b : Bindings) (n : Nat) : Prop :=
  ∀ ⦃p links out tree left least⦄, links.length = n → Trail b p links out →
    Grown b least tree left p → Extends b least tree p links out (climb left least p)

/-- On chains of `n` links tightening extends what it is given. -/
def TightenExtends (b : Bindings) (n : Nat) : Prop :=
  ∀ ⦃p links out tree right⦄ ⦃op : BinaryOp⦄, links.length = n → Trail b p links out →
    Grown b (op.precedence + 1) tree right p →
      Extends b (op.precedence + 1) tree p links out (tighten op right p)

section

variable {b : Bindings} {n : Nat}

/-- An operand starts a tree of its own. -/
theorem grown_operand (e : Expr) (least : Nat) (p : Parser) :
    Grown b least (.operand (e.bind b)) e p :=
  ⟨rfl, trivial, trivial, fun _ _ _ => trivial⟩

/-- A left side, an operator and its right side, which has been tightened. -/
theorem Grown.node {least : Nat} {op : BinaryOp} {behind : TokenStream} {p q : Parser}
    {left right : Expr} {l r : OperatorTree} (hleft : Grown b least l left p)
    (hop : peekOperator? p = .ok (some (op, behind)) p) (hleast : least ≤ op.precedence)
    (hright : Grown b (op.precedence + 1) r right q)
    (hnext : StopsBelow (op.precedence + 1) q) :
    Grown b least (.node op l r) (.binary op left right) q where
  holds := by rw [Expr.bind, hleft.holds, hright.holds, OperatorTree.toExpr]
  wellBound := ⟨hleft.next op behind hop, hright.atLeast, hleft.wellBound, hright.wellBound⟩
  atLeast := hleast
  next := fun op' behind' hop' => Nat.lt_succ_iff.mp (hnext.next op' behind' hop')

theorem Extended.node {op : BinaryOp} {p p' q : Parser} {e : Expr} {l r : OperatorTree}
    {links left : List (BinaryOp × Expr)} {out : EStateM.Result Fault Parser Unit}
    (h : Extended b (.operand e) p' links out r q left) :
    Extended b l p ((op, e) :: links) out (.node op l r) q left ∧
      left.length < ((op, e) :: links).length := by
  obtain ⟨taken, htaken, hlinks⟩ := h.rest
  have hshorter : left.length < ((op, e) :: links).length := by
    rw [hlinks, List.length_cons, List.length_append]
    omega
  refine ⟨⟨h.trail, rfl, ⟨(op, e) :: taken, ?_, ?_⟩, .inr hshorter⟩, hshorter⟩
  · rw [OperatorTree.rest, h.first, htaken]
    rfl
  · rw [hlinks, List.cons_append]

/-- Climbing takes an operator with its right side, and climbs on along a shorter chain. -/
theorem climbExtends_of_shorter (hclimb : ∀ m < n, ClimbExtends b m)
    (htighten : ∀ m < n, TightenExtends b m) : ClimbExtends b n := by
  intro p links out tree left least hlength htrail hgrown
  cases htrail with
  | stops hstops =>
      rw [climb_of_stops hstops]
      exact .here (.stops hstops) hgrown (stopsBelow_of_none hstops.1)
  | @unseen _ r f hop =>
      rw [climb_apply]
      exact .inl ⟨f, r, rfl, bind_eq_error.mpr (.inl hop)⟩
  | @faults _ r op behind f hop hoperand =>
      by_cases hleast : op.precedence < least
      · rw [climb_of_lt hop hleast]
        exact .here (.faults hop hoperand) hgrown (stopsBelow_of_lt hop hleast)
      · rw [climb_of_le hop (Nat.not_lt.mp hleast)]
        exact .inl ⟨f, r, rfl, bind_eq_error.mpr (.inl hoperand)⟩
  | @link _ q op behind e links _ hop hoperand htrail =>
      by_cases hleast : op.precedence < least
      · rw [climb_of_lt hop hleast]
        exact .here (.link hop hoperand htrail) hgrown (stopsBelow_of_lt hop hleast)
      · rw [climb_of_le hop (Nat.not_lt.mp hleast), bind_apply_ok hoperand]
        have hlinks : links.length < n := hlength ▸ Nat.lt_succ_self links.length
        rcases htighten _ hlinks rfl htrail (grown_operand e _ q) with
          ⟨f, r, hfault, hrun⟩ | ⟨right, q', tree', left', hrun, hgrown', hextended, hnext⟩
        · exact .inl ⟨f, r, hfault, bind_eq_error.mpr (.inl hrun)⟩
        · rw [bind_apply_ok hrun]
          obtain ⟨hnode, hshorter⟩ := hextended.node
          refine .of_extended hnode hshorter ?_
          exact hclimb _ (hlength ▸ hshorter) rfl hextended.trail
            (hgrown.node hop (Nat.not_lt.mp hleast) hgrown' hnext)

/-- Tightening climbs from an operator that binds more tightly. That takes the operator, so what is
left of the chain is shorter. -/
theorem tightenExtends_of_shorter (hclimb : ClimbExtends b n)
    (htighten : ∀ m < n, TightenExtends b m) : TightenExtends b n := by
  intro p links out tree right op hlength htrail hgrown
  have hoperator : ∀ tighter behind, peekOperator? p = .ok (some (tighter, behind)) p →
      Extends b (op.precedence + 1) tree p links out (tighten op right p) := by
    intro tighter behind hop
    by_cases hloose : tighter.precedence ≤ op.precedence
    · rw [tighten_of_le hop hloose]
      exact .here htrail hgrown (stopsBelow_of_lt hop (Nat.lt_succ_of_le hloose))
    · rw [tighten_of_lt hop (Nat.not_le.mp hloose)]
      have hright : Grown b tighter.precedence tree right p :=
        ⟨hgrown.holds, hgrown.wellBound, hgrown.next tighter behind hop, hgrown.next⟩
      rcases hclimb hlength htrail hright with
        ⟨f, r, hfault, hrun⟩ | ⟨e, q, tree', left, hrun, hgrown', hextended, hnext⟩
      · exact .inl ⟨f, r, hfault, bind_eq_error.mpr (.inl hrun)⟩
      · rw [bind_apply_ok hrun]
        have hshorter : left.length < links.length := by
          refine hextended.moved.resolve_left ?_
          rintro rfl
          exact Nat.lt_irrefl _ (hnext.next tighter behind hop)
        refine .of_extended hextended hshorter ?_
        exact htighten _ (hlength ▸ hshorter) rfl hextended.trail
          ⟨hgrown'.holds, hgrown'.wellBound, hgrown'.atLeast.mono (Nat.not_le.mp hloose),
            hgrown'.next⟩
  cases htrail with
  | stops hstops =>
      rw [tighten_of_none hstops.1]
      exact .here (.stops hstops) hgrown (stopsBelow_of_none hstops.1)
  | @unseen _ r f hop =>
      rw [tighten_apply]
      exact .inl ⟨f, r, rfl, bind_eq_error.mpr (.inl hop)⟩
  | faults hop hoperand => exact hoperator _ _ hop
  | link hop hoperand htrail => exact hoperator _ _ hop

theorem extends_loops (b : Bindings) (n : Nat) : ClimbExtends b n ∧ TightenExtends b n := by
  induction n using Nat.strongRecOn with
  | ind n ih =>
      have hclimb := climbExtends_of_shorter (fun m hm => (ih m hm).1) fun m hm => (ih m hm).2
      exact ⟨hclimb, tightenExtends_of_shorter hclimb fun m hm => (ih m hm).2⟩

end

/-- A whole chain is read as the tree that its operators bind it to, or the fault at its end is met.
-/
theorem expression_of_trail {b : Bindings} {p q : Parser} {e : Expr}
    {links : List (BinaryOp × Expr)} {out : EStateM.Result Fault Parser Unit}
    (hoperand : operand p = .ok e q) (htrail : Trail b q links out) :
    (∃ f r, out = .error f r ∧ expression p = .error f r) ∨
      ∃ e' r, ∃ tree : OperatorTree, out = .ok () r ∧ expression p = .ok e' r ∧
        e'.bind b = tree.toExpr ∧ tree.WellBound ∧
        tree.reading = .operand (e.bind b) :: OperatorTree.readingBehind links := by
  rw [expression_apply, bind_apply_ok hoperand]
  rcases (extends_loops b links.length).1 rfl htrail (grown_operand e 0 q) with
    hfault | ⟨e', r, tree, left, hrun, hgrown, hextended, hnext⟩
  · exact .inl hfault
  · obtain ⟨taken, htaken, rfl⟩ := hextended.rest
    cases hextended.trail with
    | stops hstops =>
        refine .inr ⟨e', r, tree, rfl, hrun, hgrown.holds, hgrown.wellBound, ?_⟩
        rw [OperatorTree.reading_eq, hextended.first, htaken, List.append_nil]
        rfl
    | unseen hop =>
        obtain ⟨found, hfound⟩ := hnext.seen
        rw [hop] at hfound
        cases hfound
    | faults hop _ => exact absurd (hnext.next _ _ hop) (Nat.not_lt_zero _)
    | link hop _ _ => exact absurd (hnext.next _ _ hop) (Nat.not_lt_zero _)

end OnePassSql.Parse

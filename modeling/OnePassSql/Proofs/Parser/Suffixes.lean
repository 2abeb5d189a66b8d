import OnePassSql.Proofs.Parser.Columns
import OnePassSql.Proofs.Parser.Precedence

/-!
The forms behind an expression. The loop that runs out of operators first takes the form, and that
is the one of the last operator; so the form is put around this operator with what it binds, and
around the whole expression only if no other operator binds less tightly.
-/

namespace OnePassSql

/-- A form that can stand behind an expression. The list of a membership test is kept as its text. -/
inductive PostfixForm where
  | notNull
  | isNull
  | membership (list : String) (negated : Bool)

/-- The form around an expression. -/
def PostfixForm.apply : PostfixForm → Expr → Expr
  | notNull, e => .unary .notNull e
  | isNull, e => .unary .isNull e
  | membership list negated, e => .membership e list negated

namespace Parse

open OperatorTree Step TokenStream

/-- From the first stream the form leads to the second. The list of a membership test goes up to the
parenthesis that closes it. -/
inductive Form : PostfixForm → TokenStream → TokenStream → Prop where
  | notNull {words : List String} {s s' : TokenStream} :
      words ∈ [["NOT", "NULL"], ["NOTNULL"]] → Words words s s' → Form .notNull s s'
  | isNull {s s' : TokenStream} : Words ["ISNULL"] s s' → Form .isNull s s'
  | membership {words : List String} {negated : Bool} {tokens : List Token}
      {s s₁ s' : TokenStream} :
      (words, negated) ∈ [(["IN", "("], false), (["NOT", "IN", "("], true)] → Words words s s₁ →
      s₁.enclosed? 1 = some (tokens, s') →
      Form (.membership (" ".intercalate (tokens.map Token.text)) negated) s s'

/-! ## One form -/

section Forms

variable {form : PostfixForm} {s s' : TokenStream}

theorem Form.leadsTo (h : Form form s s') : s.LeadsTo s' := by
  cases h with
  | notNull _ hwords => exact hwords.leadsTo
  | isNull hwords => exact hwords.leadsTo
  | membership _ hwords hlist => exact hwords.leadsTo.trans (leadsTo_of_enclosed? hlist)

theorem Form.at (h : Form form s s') : s.At ["NOT", "NOTNULL", "ISNULL", "IN"] := by
  cases h with
  | notNull hmem hwords =>
      simp only [List.mem_cons, List.not_mem_nil, or_false] at hmem
      rcases hmem with rfl | rfl <;> exact hwords.at_of_mem (by decide)
  | isNull hwords => exact hwords.at_of_mem (by decide)
  | membership hmem hwords _ =>
      simp only [List.mem_cons, List.not_mem_nil, or_false, Prod.mk.injEq] at hmem
      rcases hmem with ⟨rfl, -⟩ | ⟨rfl, -⟩ <;> exact hwords.at_of_mem (by decide)

/-- None of the words that forms start with is an operator. -/
theorem peekOperator?_of_formStart {p : Parser}
    (h : p.ahead.At ["NOT", "NOTNULL", "ISNULL", "IN"]) : peekOperator? p = .ok none p := by
  obtain ⟨word, hmem, _, hword⟩ := h
  generalize hahead : p.ahead = s at hword
  cases hword with
  | cons his _ =>
      have hno : ∀ word ∈ ["NOT", "NOTNULL", "ISNULL", "IN"],
          pairedSigns ⟨.word, word, 0⟩ = [] ∧ meaning? singleSigns ⟨.word, word, 0⟩ = none := by
        decide
      exact peekOperator?_of_is hahead his (hno word hmem).1 (hno word hmem).2

theorem Form.peekOperator? {p : Parser} (h : Form form p.ahead s') :
    peekOperator? p = .ok none p :=
  peekOperator?_of_formStart h.at

theorem takes_membershipList {tokens : List Token} {s₁ : TokenStream} (h : Words ["("] s s₁)
    (hlist : s₁.enclosed? 1 = some (tokens, s')) :
    Takes membershipList s (" ".intercalate (tokens.map Token.text)) s' :=
  (takes_expect h).bind fun _ _ => listBehindParenthesis_of_some hlist

/-- A form is put around the expression before it. -/
theorem Form.takes_suffix? (h : Form form s s') (e : Expr) :
    Takes (suffix? e) s (some (form.apply e)) s' := by
  cases h with
  | notNull hmem hwords =>
      simp only [List.mem_cons, List.not_mem_nil, or_false] at hmem
      rcases hmem with rfl | rfl
      · obtain ⟨s₁, hnot, hnull⟩ := hwords.exists_of_cons
        refine (takes_acceptOne?_of_words hnot (a := .negated) rfl).bind ?_
        exact (takes_expectOne hnull (a := true) rfl).bind (takes_pure _ _)
      · exact (takes_acceptOne?_of_words hwords (a := .notNull) rfl).bind (takes_pure _ _)
  | isNull hwords =>
      exact (takes_acceptOne?_of_words hwords (a := .isNull) rfl).bind (takes_pure _ _)
  | membership hmem hwords hlist =>
      simp only [List.mem_cons, List.not_mem_nil, or_false, Prod.mk.injEq] at hmem
      rcases hmem with ⟨rfl, rfl⟩ | ⟨rfl, rfl⟩
      · obtain ⟨s₁, hin, hopen⟩ := hwords.exists_of_cons
        refine (takes_acceptOne?_of_words hin (a := .membership) rfl).bind ?_
        exact (takes_membershipList hopen hlist).bind (takes_pure _ _)
      · obtain ⟨s₁, hnot, hwords⟩ := hwords.exists_of_cons
        obtain ⟨s₂, hin, hopen⟩ := hwords.exists_of_cons
        refine (takes_acceptOne?_of_words hnot (a := .negated) rfl).bind ?_
        refine (takes_expectOne hin (a := false) rfl).bind ?_
        exact (takes_membershipList hopen hlist).bind (takes_pure _ _)

theorem PostfixForm.bind_apply (b : Bindings) (e : Expr) :
    (form.apply e).bind b = form.apply (e.bind b) := by
  cases form <;> rfl

theorem PostfixForm.apply_ne_binary (e : Expr) (op : BinaryOp) (e₁ e₂ : Expr) :
    form.apply e ≠ .binary op e₁ e₂ := by
  cases form <;> exact fun h => nomatch h

end Forms

/-! ## The loop that takes the form -/

/-- Between the states stands what is put around an expression, and nothing that the expression goes
on with. -/
structure Suffixed (b : Bindings) (f : Expr → Expr) (p q : Parser) : Prop where
  seen : peekOperator? p = .ok none p
  allowed : p.suffixes = true
  taken : ∀ e, suffix? e p = .ok (some (f e)) q
  bind : ∀ e, (f e).bind b = f (e.bind b)
  stops : Stops q

/-- The second tree is the first one with links of a chain behind it. -/
structure GoesOn (tree : OperatorTree) (links : List (BinaryOp × Expr)) (tree' : OperatorTree) :
    Prop where
  first : tree'.first = tree.first
  rest : tree'.rest = tree.rest ++ links

/-- The run stops inside the chain, before an operator below `least`. -/
def StopsInside (b : Bindings) (s : Parser) (least : Nat) (tree : OperatorTree) (p : Parser)
    (links : List (BinaryOp × Expr)) (run : EStateM.Result Fault Parser Expr) : Prop :=
  ∃ e q tree' taken left, run = .ok e q ∧ Grown b least tree' e q ∧ StopsBelow least q ∧
    Behind b q left s ∧ left ≠ [] ∧ GoesOn tree taken tree' ∧ links = taken ++ left ∧
    (q = p ∨ left.length < links.length)

/-- The run takes the whole chain and what stands behind it, which goes around the last operator. -/
def TakesSuffix (b : Bindings) (f : Expr → Expr) (u : Parser) (least : Nat) (tree : OperatorTree)
    (links : List (BinaryOp × Expr)) (run : EStateM.Result Fault Parser Expr) : Prop :=
  ∃ e tree', run = .ok e u ∧ e.bind b = tree'.onLast f ∧ tree'.WellBound ∧ tree'.AtLeast least ∧
    GoesOn tree links tree'

/-- Along chains of `n` links climbing stops inside or takes what stands behind. If there are no
more links, the tree so far ends with its root. -/
def ClimbTakesSuffix (b : Bindings) (f : Expr → Expr) (s u : Parser) (n : Nat) : Prop :=
  ∀ ⦃p links tree left least⦄, links.length = n → Behind b p links s → Grown b least tree left p →
    (links = [] → tree.onLast f = f tree.toExpr) →
      StopsInside b s least tree p links (climb left least p) ∨
        TakesSuffix b f u least tree links (climb left least p)

/-- Along chains of `n` links tightening stops inside or takes what stands behind, if there are
links at all. -/
def TightenTakesSuffix (b : Bindings) (f : Expr → Expr) (s u : Parser) (n : Nat) : Prop :=
  ∀ ⦃p links tree right⦄ ⦃op : BinaryOp⦄, links.length = n → links ≠ [] → Behind b p links s →
    Grown b (op.precedence + 1) tree right p →
      StopsInside b s (op.precedence + 1) tree p links (tighten op right p) ∨
        TakesSuffix b f u (op.precedence + 1) tree links (tighten op right p)

section

variable {b : Bindings} {f : Expr → Expr} {p q s u : Parser} {tree tree' : OperatorTree}
  {taken left links : List (BinaryOp × Expr)} {least n : Nat} {e : Expr}

theorem GoesOn.refl (tree : OperatorTree) : GoesOn tree [] tree :=
  ⟨rfl, (List.append_nil _).symm⟩

theorem GoesOn.trans {tree'' : OperatorTree} (h : GoesOn tree taken tree')
    (h' : GoesOn tree' left tree'') : GoesOn tree (taken ++ left) tree'' :=
  ⟨h'.first.trans h.first, by rw [h'.rest, h.rest, List.append_assoc]⟩

theorem GoesOn.node {l r : OperatorTree} (h : GoesOn (.operand e) links r) (op : BinaryOp) :
    GoesOn l ((op, e) :: links) (.node op l r) where
  first := rfl
  rest := by
    rw [OperatorTree.rest, h.first, h.rest]
    rfl

/-- A run that goes on where a part of the chain has been taken. -/
theorem takesSuffix_of_goesOn {run : EStateM.Result Fault Parser Expr} {least' : Nat}
    (htree : GoesOn tree taken tree') (hlinks : links = taken ++ left)
    (hshorter : left.length < links.length)
    (h : StopsInside b s least' tree' q left run ∨ TakesSuffix b f u least' tree' left run) :
    StopsInside b s least' tree p links run ∨ TakesSuffix b f u least' tree links run := by
  subst hlinks
  rcases h with
    ⟨e, r, tree'', taken', left', hrun, hgrown, hnext, hbehind, hsome, hmore, rfl, -⟩ |
    ⟨e, tree'', hrun, hbind, hbound, hleast, hmore⟩
  · refine .inl ⟨e, r, tree'', taken ++ taken', left', hrun, hgrown, hnext, hbehind, hsome,
      htree.trans hmore, (List.append_assoc _ _ _).symm, .inr ?_⟩
    rw [List.length_append] at hshorter
    omega
  · exact .inr ⟨e, tree'', hrun, hbind, hbound, hleast, htree.trans hmore⟩

/-- A run that stops at once. -/
theorem stopsInside_here (hbehind : Behind b p links s) (hlinks : links ≠ [])
    (hgrown : Grown b least tree e p) (hnext : StopsBelow least p) :
    StopsInside b s least tree p links (.ok e p) :=
  ⟨e, p, tree, [], links, rfl, hgrown, hnext, hbehind, hlinks, .refl tree, rfl, .inl rfl⟩

/-- Behind the last operator climbing takes what stands there; otherwise it takes an operator with
its right side, and climbs on if the right side has not taken everything. -/
theorem climbTakesSuffix_of_shorter (hs : Suffixed b f s u)
    (hclimb : ∀ m < n, ClimbTakesSuffix b f s u m)
    (htighten : ∀ m < n, TightenTakesSuffix b f s u m) : ClimbTakesSuffix b f s u n := by
  intro p links tree left least hlength hbehind hgrown hroot
  cases hbehind with
  | nil p =>
      rw [climb_of_suffix hs.seen hs.allowed (hs.taken left), climb_of_stops hs.stops]
      refine .inr ⟨_, tree, rfl, ?_, hgrown.wellBound, hgrown.atLeast, .refl tree⟩
      rw [hs.bind, hgrown.holds, hroot rfl]
  | @cons p q _ op behind e links hop hoperand hbehind =>
      by_cases hleast : op.precedence < least
      · rw [climb_of_lt hop hleast]
        exact .inl (stopsInside_here (.cons hop hoperand hbehind) (List.cons_ne_nil _ _) hgrown
          (stopsBelow_of_lt hop hleast))
      rw [climb_of_le hop (Nat.not_lt.mp hleast), bind_apply_ok hoperand]
      have hshorter : links.length < n := hlength ▸ Nat.lt_succ_self links.length
      by_cases hlinks : links = []
      · subst hlinks
        cases hbehind
        rw [bind_apply_ok (tighten_of_none hs.seen)]
        have hnode : GoesOn tree [(op, e.bind b)] (.node op tree (.operand (e.bind b))) :=
          (GoesOn.refl _).node op
        exact takesSuffix_of_goesOn hnode rfl (Nat.succ_pos _)
          (hclimb 0 hshorter rfl (.nil s) (hgrown.node hop (Nat.not_lt.mp hleast)
            (grown_operand e _ s) (stopsBelow_of_none hs.seen)) fun _ => rfl)
      rcases htighten _ hshorter rfl hlinks hbehind (grown_operand e _ q) with
        ⟨right, q', r, taken, left', hrun, hgrown', hnext, hbehind', hsome, hmore, rfl, -⟩ |
        ⟨right, r, hrun, hbind, hbound, hright, hmore⟩
      · rw [bind_apply_ok hrun]
        have hshorter' : left'.length < n := by
          rw [List.length_append] at hshorter
          omega
        exact takesSuffix_of_goesOn (hmore.node op) (List.cons_append).symm (hlength ▸ hshorter')
          (hclimb _ hshorter' rfl hbehind' (hgrown.node hop (Nat.not_lt.mp hleast) hgrown' hnext)
            fun hnil => absurd hnil hsome)
      · -- the right side has taken what stands behind the chain
        rw [bind_apply_ok hrun, climb_of_stops hs.stops]
        refine .inr ⟨_, .node op tree r, rfl, ?_, ⟨hgrown.next op behind hop, hright,
          hgrown.wellBound, hbound⟩, Nat.not_lt.mp hleast, hmore.node op⟩
        have hrest : r.rest ≠ [] := hmore.rest ▸ hlinks
        rw [onLast_node hrest, Expr.bind, hgrown.holds, hbind]

/-- Tightening climbs from an operator that binds more tightly. -/
theorem tightenTakesSuffix_of_shorter (hs : Suffixed b f s u)
    (hclimb : ClimbTakesSuffix b f s u n) (htighten : ∀ m < n, TightenTakesSuffix b f s u m) :
    TightenTakesSuffix b f s u n := by
  intro p links tree right op hlength hlinks hbehind hgrown
  have hwhole := hbehind
  cases hbehind with
  | nil p => exact absurd rfl hlinks
  | @cons _ _ _ tighter behind _ _ hop _ _ =>
      by_cases hloose : tighter.precedence ≤ op.precedence
      · rw [tighten_of_le hop hloose]
        exact .inl (stopsInside_here hwhole hlinks hgrown
          (stopsBelow_of_lt hop (Nat.lt_succ_of_le hloose)))
      rw [tighten_of_lt hop (Nat.not_le.mp hloose)]
      have hright : Grown b tighter.precedence tree right p :=
        ⟨hgrown.holds, hgrown.wellBound, hgrown.next tighter behind hop, hgrown.next⟩
      rcases hclimb hlength hwhole hright fun hnil => absurd hnil hlinks with
        ⟨e, q, tree', taken, left, hrun, hgrown', hnext, hbehind', hsome, hmore, hsplit, hmoved⟩ |
        ⟨e, tree', hrun, hbind, hbound, hleast, hmore⟩
      · rw [bind_apply_ok hrun]
        have hshorter := hmoved.resolve_left (by
          rintro rfl
          exact Nat.lt_irrefl _ (hnext.next tighter behind hop))
        exact takesSuffix_of_goesOn hmore hsplit hshorter
          (htighten _ (hlength ▸ hshorter) rfl hsome hbehind' ⟨hgrown'.holds, hgrown'.wellBound,
            hgrown'.atLeast.mono (Nat.not_le.mp hloose), hgrown'.next⟩)
      · rw [bind_apply_ok hrun, tighten_of_none hs.stops.1]
        exact .inr ⟨e, tree', rfl, hbind, hbound, hleast.mono (Nat.not_le.mp hloose), hmore⟩

theorem takesSuffix_loops (hs : Suffixed b f s u) (n : Nat) :
    ClimbTakesSuffix b f s u n ∧ TightenTakesSuffix b f s u n := by
  induction n using Nat.strongRecOn with
  | ind n ih =>
      have hclimb :=
        climbTakesSuffix_of_shorter hs (fun m hm => (ih m hm).1) fun m hm => (ih m hm).2
      exact ⟨hclimb, tightenTakesSuffix_of_shorter hs hclimb fun m hm => (ih m hm).2⟩

/-- A whole chain is read as its tree with the form around the last operator. -/
theorem expression_of_suffixed (hoperand : operand p = .ok e q) (hbehind : Behind b q links s)
    (hs : Suffixed b f s u) :
    ∃ e' tree, expression p = .ok e' u ∧ e'.bind b = tree.onLast f ∧ tree.WellBound ∧
      GoesOn (.operand (e.bind b)) links tree := by
  rw [expression_apply, bind_apply_ok hoperand]
  rcases (takesSuffix_loops hs links.length).1 rfl hbehind (grown_operand e 0 q) fun _ => rfl with
    ⟨_, _, _, _, left, -, -, hnext, hbehind', hsome, -⟩ | ⟨e', tree, hrun, hbind, hbound, -, hmore⟩
  · -- no operator is below the loosest
    cases hbehind' with
    | nil => exact absurd rfl hsome
    | cons hop _ _ => exact absurd (hnext.next _ _ hop) (Nat.not_lt_zero _)
  · exact ⟨e', tree, hrun, hbind, hbound, hmore⟩

end

/-! ## A form behind a chain -/

/-- From the first state operands, each with an operator behind it, and a last operand lead to the
second; and what the last one is once the bound values are in it. -/
def Chain (b : Bindings) (p : Parser) (links : List (Expr × BinaryOp)) (last : Expr) (s : Parser) :
    Prop :=
  ∃ q r n e, Links b p links q ∧ Nots q n r ∧ Atom b r e s ∧ last = e.negated n

section

variable {b : Bindings} {p q s : Parser} {links : List (Expr × BinaryOp)} {last : Expr}

theorem Nots.suffixes_eq {n : Nat} (h : Nots p n q) : q.suffixes = p.suffixes := by
  induction h with
  | none p => rfl
  | not _ _ _ ih => exact ih

theorem Atom.suffixes_eq {e : Expr} (h : Atom b p e q) : q.suffixes = p.suffixes := by
  cases h <;> rfl

theorem Links.suffixes_eq (h : Links b p links q) : q.suffixes = p.suffixes := by
  induction h with
  | nil p => rfl
  | cons hnots hatom hop _ ih =>
      rw [ih, ← hnots.suffixes_eq, ← hatom.suffixes_eq]
      cases hop <;> rfl

theorem Chain.suffixes_eq (h : Chain b p links last s) : s.suffixes = p.suffixes := by
  obtain ⟨q, r, n, e, hlinks, hnots, hatom, -⟩ := h
  rw [hatom.suffixes_eq, hnots.suffixes_eq, hlinks.suffixes_eq]

theorem Chain.leadsTo (h : Chain b p links last s) : p.ahead.LeadsTo s.ahead := by
  obtain ⟨q, r, n, e, hlinks, hnots, hatom, -⟩ := h
  exact hlinks.leadsTo.trans (hnots.leadsTo.trans hatom.leadsTo)

/-- The last operand is read as it is. -/
theorem Chain.exists_operand (h : Chain b p links last s) (hp : Lexed p) :
    ∃ q e, Links b p links q ∧ StartsOperand q ∧ operand q = .ok e s ∧ last = e.bind b := by
  obtain ⟨q, r, n, _, hlinks, hnots, hatom, rfl⟩ := h
  have hr : Lexed r := (hp.of_leadsTo hlinks.leadsTo).of_leadsTo hnots.leadsTo
  obtain ⟨e, he, rfl⟩ := exists_operand_of_atom hr hatom
  exact ⟨q, e.negated n, hlinks, startsOperand_of_nots hnots (startsOperand_of_atom hr hatom),
    (operand_of_nots hnots).1 e s he, (Expr.bind_negated n e).symm⟩

/-- What stands behind the form ends the expression. -/
theorem suffixed_of_form {form : PostfixForm} {t : TokenStream} (hs : Lexed s)
    (hsuffixes : s.suffixes = true) (hform : Form form s.ahead t)
    (hend : EndsChain { s with ahead := t }) (hbar : ¬AtBrokenBar { s with ahead := t }) :
    Suffixed b form.apply s { s with ahead := t } where
  seen := hform.peekOperator?
  allowed := hsuffixes
  taken := fun e => hform.takes_suffix? e s.cursor s.suffixes
  bind := PostfixForm.bind_apply b
  stops := stops_of_endsChain (hs.of_leadsTo hform.leadsTo) hend hbar

/-- A chain with a form behind it is read as the chain is without the form, but that the form is
around the last operator. -/
theorem boundExpression_of_chain_form {form : PostfixForm} {t : TokenStream} (hp : Lexed p)
    (hsuffixes : p.suffixes = true) (hchain : Chain b p links last s)
    (hform : Form form s.ahead t) (hend : EndsChain { s with ahead := t })
    (hbar : ¬AtBrokenBar { s with ahead := t }) :
    ∃ tree : OperatorTree,
      boundExpression b p = .ok (tree.onLast form.apply) { s with ahead := t } ∧ tree.WellBound ∧
      tree.reading = chainReading links last ∧ tree.rest.map Prod.fst = links.map Prod.snd := by
  obtain ⟨q, e, hlinks, hstart, he, rfl⟩ := hchain.exists_operand hp
  obtain ⟨e', r, rest, he', hbehind, hreading, hops⟩ := behind_of_links hp hlinks hstart he
  have hsuffixed : Suffixed b form.apply s { s with ahead := t } :=
    suffixed_of_form (hp.of_leadsTo hchain.leadsTo) (hchain.suffixes_eq.trans hsuffixes) hform hend
      hbar
  obtain ⟨e'', tree, hrun, hbind, hbound, hfirst, hrest⟩ :=
    expression_of_suffixed he' hbehind hsuffixed
  refine ⟨tree, ?_, hbound, ?_, hrest ▸ hops⟩
  · rw [boundExpression, bind_apply_ok hrun, hbind]
    rfl
  · rw [OperatorTree.reading_eq, hfirst, hrest, hreading]
    rfl

end

/-- A form behind a chain of operands and operators is put around the last operator with what it
binds, or around the operand if there is no operator. It is put around all that the chain is read as
only if no operator of the chain binds less tightly than the last one. -/
theorem boundExpression_of_postfixForm (b : Bindings) {p p' s s' : Parser}
    {links : List (Expr × BinaryOp)} {last : Expr} {form : PostfixForm} {t : TokenStream}
    (hp : InText p) (hchain : Chain b p links last s) (hend : EndsChain s) (hbar : ¬AtBrokenBar s)
    (hp' : InText p') (hsuffixes : p'.suffixes = true) (hchain' : Chain b p' links last s')
    (hform : Form form s'.ahead t) (hend' : EndsChain { s' with ahead := t })
    (hbar' : ¬AtBrokenBar { s' with ahead := t }) :
    ∃ tree : OperatorTree, boundExpression b p = .ok tree.toExpr s ∧
      boundExpression b p' = .ok (tree.onLast form.apply) { s' with ahead := t } ∧
      tree.WellBound ∧ tree.reading = chainReading links last ∧
      (tree.onLast form.apply = form.apply tree.toExpr ↔
        ∀ final ∈ (links.map Prod.snd).getLast?, ∀ op ∈ links.map Prod.snd,
          final.precedence ≤ op.precedence) := by
  obtain ⟨tree, hrun', hbound, hreading, hops⟩ :=
    boundExpression_of_chain_form hp'.lexed hsuffixes hchain' hform hend' hbar'
  obtain ⟨q, e, hlinks, hstart, he, rfl⟩ := hchain.exists_operand hp.lexed
  obtain ⟨tree', hrun, -, -, hone⟩ := readsTree_of_links hp.lexed hlinks hstart he
    (stops_of_endsChain (hp.lexed.of_leadsTo hchain.leadsTo) hend hbar)
  obtain rfl := hone tree hbound hreading
  exact ⟨tree, hrun, hrun', hbound, hreading,
    hops ▸ hbound.onLast_eq_iff PostfixForm.apply_ne_binary⟩

/-- The tokens of `a + b * c`, with others behind them. -/
def sumOfProduct (behind : TokenStream) : TokenStream :=
  .token ⟨.word, "a", 0⟩ (.token ⟨.symbol, "+", 2⟩ (.token ⟨.word, "b", 4⟩
    (.token ⟨.symbol, "*", 6⟩ (.token ⟨.word, "c", 8⟩ behind))))

theorem chain_sumOfProduct (behind : TokenStream) :
    Chain .empty ⟨sumOfProduct behind, 0, true⟩ [(.column "a", .add), (.column "b", .mul)]
      (.column "c") ⟨behind, 0, true⟩ := by
  have hwords : ∀ t ∈ ([⟨.word, "a", 0⟩, ⟨.word, "b", 4⟩, ⟨.word, "c", 8⟩] : List Token),
      t.kind = .word ∧ ∀ word ∈ ["COALESCE", "NULL", "NOT"], t.is word = false := by
    decide
  have hname : ∀ t ∈ ([⟨.word, "a", 0⟩, ⟨.word, "b", 4⟩, ⟨.word, "c", 8⟩] : List Token),
      ∀ rest, Atom .empty ⟨.token t rest, 0, true⟩ (.column t.text) ⟨rest, 0, true⟩ :=
    fun t hmem rest => .name rfl (hwords t hmem).1 (hwords t hmem).2
  have hadd : Operator .add ⟨(sumOfProduct behind).tail, 0, true⟩ _ :=
    .sign rfl (List.mem_singleton.mpr rfl) (by decide)
  have hmul : Operator .mul ⟨(sumOfProduct behind).tail.tail.tail, 0, true⟩ _ :=
    .sign rfl (List.mem_singleton.mpr rfl) (by decide)
  exact ⟨_, _, 0, _, .cons (.none _) (hname _ (by decide) _) hadd
    (.cons (.none _) (hname _ (by decide) _) hmul (.nil _)), .none _, hname _ (by decide) _, rfl⟩

theorem endsChain_of_done (n : Nat) :
    EndsChain ⟨.done n, 0, true⟩ ∧ ¬AtBrokenBar ⟨.done n, 0, true⟩ := by
  refine ⟨.inl ⟨n, rfl⟩, ?_⟩
  rintro ⟨bar, ch, m, hahead, -⟩
  cases hahead

/-- The tokens of `NOT NULL` behind `a + b * c`. -/
def notNullBehind : TokenStream :=
  .token ⟨.word, "NOT", 10⟩ (.token ⟨.word, "NULL", 14⟩ (.done 18))

theorem form_notNullBehind : Form .notNull notNullBehind (.done 18) :=
  .notNull (.head _) (.cons (by decide) (.cons (by decide) (.nil _)))

theorem inText_sumOfProduct :
    InText ⟨sumOfProduct (.done 9), 0, true⟩ ∧ InText ⟨sumOfProduct notNullBehind, 0, true⟩ :=
  ⟨⟨0, "a + b * c".toList, by decide +kernel⟩, ⟨0, "a + b * c NOT NULL".toList, by decide +kernel⟩⟩

/-- In `a + b * c NOT NULL` the form is around the product. -/
theorem boundExpression_of_postfixForm_product :
    ∃ tree : OperatorTree,
      boundExpression .empty (Parser.ofText "a + b * c") = .ok tree.toExpr ⟨.done 9, 0, true⟩ ∧
      boundExpression .empty (Parser.ofText "a + b * c NOT NULL")
        = .ok (tree.onLast PostfixForm.notNull.apply) ⟨.done 18, 0, true⟩ ∧
      tree.WellBound ∧
      tree.reading = chainReading [(.column "a", .add), (.column "b", .mul)] (.column "c") ∧
      (tree.onLast PostfixForm.notNull.apply = PostfixForm.notNull.apply tree.toExpr ↔
        ∀ final ∈ [BinaryOp.add, .mul].getLast?, ∀ op ∈ [BinaryOp.add, .mul],
          final.precedence ≤ op.precedence) := by
  have hchain : Parser.ofText "a + b * c" = ⟨sumOfProduct (.done 9), 0, true⟩ := by
    decide +kernel
  have hsuffixed : Parser.ofText "a + b * c NOT NULL" = ⟨sumOfProduct notNullBehind, 0, true⟩ := by
    decide +kernel
  rw [hchain, hsuffixed]
  exact boundExpression_of_postfixForm .empty inText_sumOfProduct.1 (chain_sumOfProduct _)
    (endsChain_of_done 9).1 (endsChain_of_done 9).2 inText_sumOfProduct.2 rfl
    (chain_sumOfProduct _) form_notNullBehind (endsChain_of_done 18).1 (endsChain_of_done 18).2

/-- So a form is not always put around all that the chain before it is read as. -/
theorem not_boundExpression_of_postfixForm :
    ¬∀ (b : Bindings) (p p' s s' : Parser) (links : List (Expr × BinaryOp)) (last e : Expr)
        (form : PostfixForm) (t : TokenStream), InText p → Chain b p links last s → EndsChain s →
        ¬AtBrokenBar s → InText p' → p'.suffixes = true → Chain b p' links last s' →
        Form form s'.ahead t → EndsChain { s' with ahead := t } →
        ¬AtBrokenBar { s' with ahead := t } → boundExpression b p = .ok e s →
          boundExpression b p' = .ok (form.apply e) { s' with ahead := t } := by
  intro h
  have hdone := endsChain_of_done 18
  obtain ⟨tree, hrun, hbound, hreading, -⟩ := boundExpression_of_chain_form
    inText_sumOfProduct.2.lexed rfl (chain_sumOfProduct notNullBehind) form_notNullBehind hdone.1
    hdone.2
  obtain ⟨q, e, hlinks, hstart, he, hlast⟩ :=
    (chain_sumOfProduct (.done 9)).exists_operand inText_sumOfProduct.1.lexed
  have hstops := stops_of_endsChain (inText_sumOfProduct.1.lexed.of_leadsTo
    (chain_sumOfProduct _).leadsTo) (endsChain_of_done 9).1 (endsChain_of_done 9).2
  obtain ⟨tree', hrun', -⟩ := readsTree_of_links inText_sumOfProduct.1.lexed hlinks hstart he hstops
  have hwhole := h .empty _ _ _ _ _ _ _ .notNull _ inText_sumOfProduct.1 (chain_sumOfProduct _)
    (endsChain_of_done 9).1 (endsChain_of_done 9).2 inText_sumOfProduct.2 rfl
    (chain_sumOfProduct _) form_notNullBehind hdone.1 hdone.2 hrun'
  rw [hrun] at hwhole
  -- the tree of the chain has the product on the right
  obtain rfl : tree = .node .add (.operand (.column "a"))
      (.node .mul (.operand (.column "b")) (.operand (.column "c"))) :=
    hbound.eq_of_reading ⟨trivial, Nat.le_refl _, trivial, trivial, trivial, trivial, trivial⟩
      hreading
  cases hwhole

end Parse

end OnePassSql

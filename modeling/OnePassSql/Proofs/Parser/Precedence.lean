import OnePassSql.Proofs.Parser.Chains
import OnePassSql.Proofs.Parser.Climbing

/-!
An expression that is a chain of operands and operators is read as the one tree that the precedences
allow; a minus before an operand covers everything that follows it.
-/

namespace OnePassSql.Parse

open OperatorTree Step

/-- The operands and operators of a chain from left to right. -/
def chainReading (links : List (Expr × BinaryOp)) (last : Expr) : List Item :=
  links.flatMap (fun link => [.operand link.1, .operator link.2]) ++ [.operand last]

/-- The expression from the first state up to the second is the tree that is bound well and reads as
given; there is no other one. -/
def ReadsTree (b : Bindings) (p : Parser) (reading : List Item) (q : Parser) : Prop :=
  ∃ tree : OperatorTree, boundExpression b p = .ok tree.toExpr q ∧ tree.WellBound ∧
    tree.reading = reading ∧
    ∀ other : OperatorTree, other.WellBound → other.reading = reading → other = tree

/-! ## Chains -/

section Chains

variable {b : Bindings} {p q r : Parser} {links : List (Expr × BinaryOp)}

/-- The first operand of a chain, and its operators with the operands behind them. -/
theorem behind_of_links (hp : Lexed p) (hlinks : Links b p links q) (hq : StartsOperand q)
    {e : Expr} (he : operand q = .ok e r) :
    ∃ e' s rest, operand p = .ok e' s ∧ Behind b s rest r ∧
      chainReading links (e.bind b) = .operand (e'.bind b) :: readingBehind rest ∧
      rest.map Prod.fst = links.map Prod.snd := by
  -- an operator goes with the operand behind it, so each link puts its own in front of the next one
  induction hlinks with
  | nil p => exact ⟨e, r, [], he, .nil r, rfl, rfl⟩
  | @cons p p₁ p₂ p₃ q n a op links hnots hatom hop hlinks ih =>
      have hp₁ : Lexed p₁ := hp.of_leadsTo hnots.leadsTo
      have hp₃ : Lexed p₃ := (hp₁.of_leadsTo hatom.leadsTo).of_leadsTo hop.leadsTo
      obtain ⟨e', s, rest, he', hbehind, hreading, hops⟩ := ih hp₃ hq he
      obtain ⟨a', ha', rfl⟩ := exists_operand_of_atom hp₁ hatom
      obtain ⟨hpeek, hahead⟩ := peekOperator?_of_operator hop (startsOperand_of_links hp₃ hlinks hq)
      rw [hahead] at he'
      refine ⟨_, _, _, (operand_of_nots hnots).1 a' p₂ ha', .cons hpeek he' hbehind, ?_, ?_⟩
      · rw [Expr.bind_negated, chainReading, List.flatMap_cons, List.append_assoc, ← chainReading,
          hreading]
        rfl
      · rw [List.map_cons, List.map_cons, hops]

/-- A fault in the last operand is the fault of the first one, or the trail behind the first operand
ends with it. -/
theorem trail_of_links_error (hp : Lexed p) (hlinks : Links b p links q) (hq : StartsOperand q)
    {f : Fault} (hf : operand q = .error f r) : operand p = .error f r ∨
      ∃ e s rest, operand p = .ok e s ∧ Trail b s rest (.error f r) := by
  induction hlinks with
  | nil p => exact .inl hf
  | @cons p p₁ p₂ p₃ q n a op links hnots hatom hop hlinks ih =>
      have hp₁ : Lexed p₁ := hp.of_leadsTo hnots.leadsTo
      have hp₃ : Lexed p₃ := (hp₁.of_leadsTo hatom.leadsTo).of_leadsTo hop.leadsTo
      obtain ⟨a', ha', rfl⟩ := exists_operand_of_atom hp₁ hatom
      obtain ⟨hpeek, hahead⟩ := peekOperator?_of_operator hop (startsOperand_of_links hp₃ hlinks hq)
      have hfirst := (operand_of_nots hnots).1 a' p₂ ha'
      rw [hahead] at ih
      rcases ih (hahead ▸ hp₃) hq hf with hhere | ⟨e, s, rest, he, hrest⟩
      · exact .inr ⟨_, _, _, hfirst, .faults hpeek hhere⟩
      · exact .inr ⟨_, _, _, hfirst, .link hpeek he hrest⟩

/-- A chain whose last operand is read and has nothing behind it is read as its tree. -/
theorem readsTree_of_links (hp : Lexed p) (hlinks : Links b p links q) (hq : StartsOperand q)
    {e : Expr} (he : operand q = .ok e r) (hstops : Stops r) :
    ReadsTree b p (chainReading links (e.bind b)) r := by
  obtain ⟨e', s, rest, he', hbehind, hreading, -⟩ := behind_of_links hp hlinks hq he
  rcases expression_of_trail he' (hbehind.trail (.stops hstops)) with
    ⟨f, r', hout, -⟩ | ⟨e'', r', tree, hout, hexpression, hbind, hbound, htree⟩
  · cases hout
  · cases hout
    refine ⟨tree, ?_, hbound, htree.trans hreading.symm, fun other hother hsame => ?_⟩
    · rw [boundExpression, bind_apply_ok hexpression, hbind]
      rfl
    · exact hother.eq_of_reading hbound (hsame.trans (htree.trans hreading.symm).symm)

/-- A chain that ends with a fault is that fault. -/
theorem boundExpression_of_trail_error {e : Expr} {rest : List (BinaryOp × Expr)} {f : Fault}
    (he : operand p = .ok e q) (htrail : Trail b q rest (.error f r)) :
    boundExpression b p = .error f r := by
  rcases expression_of_trail he htrail with ⟨f', r', hout, hexpression⟩ | ⟨_, _, _, hout, -⟩
  · cases hout
    exact bind_eq_error.mpr (.inl hexpression)
  · cases hout

theorem boundExpression_of_links_error (hp : Lexed p) (hlinks : Links b p links q)
    (hq : StartsOperand q) {f : Fault} (hf : operand q = .error f r) :
    boundExpression b p = .error f r := by
  rcases trail_of_links_error hp hlinks hq hf with hhere | ⟨e, s, rest, he, htrail⟩
  · refine bind_eq_error.mpr (.inl ?_)
    rw [expression_apply]
    exact bind_eq_error.mpr (.inl hhere)
  · exact boundExpression_of_trail_error he htrail

/-- A bar behind the chain, with a character behind it that no token starts with, is that fault. -/
theorem boundExpression_of_brokenBar (hp : Lexed p) (hlinks : Links b p links q)
    (hq : StartsOperand q) {e : Expr} (he : operand q = .ok e r) {bar : Token} {ch : Char} {m : Nat}
    (hahead : r.ahead = .token bar (.fault ch m)) (his : bar.is "|" = true) :
    boundExpression b p = .error (.lexical ch m) { r with ahead := .fault ch m } := by
  obtain ⟨e', s, rest, he', hbehind, -⟩ := behind_of_links hp hlinks hq he
  exact boundExpression_of_trail_error he'
    (hbehind.trail (.unseen (peekOperator?_of_brokenBar hahead his)))

end Chains

/-- A chain of operands and operators is read up to its end as the one tree that the precedences
allow, each NOT covering the next operand only. The character behind a bar is looked at, though, and
if it starts no token, that is the fault. A minus in the place of an operand is negation of all that
follows it as an expression, whatever comes of that. -/
theorem boundExpression_of_chain (b : Bindings) {p q r : Parser} {links : List (Expr × BinaryOp)}
    {n : Nat} (hp : InText p) (hlinks : Links b p links q) (hnots : Nots q n r) :
    (∀ e s, Atom b r e s → EndsChain s →
      (¬AtBrokenBar s → ReadsTree b p (chainReading links (e.negated n)) s) ∧
      ∀ bar ch m, s.ahead = .token bar (.fault ch m) → bar.is "|" = true →
        boundExpression b p = .error (.lexical ch m) { s with ahead := .fault ch m }) ∧
    ∀ minus rest, r.ahead = .token minus rest → minus.is "-" = true →
      (∀ t behind, rest = .token t behind → ¬SpellsLeast minus t) →
      (∀ e s, boundExpression b { r with ahead := rest } = .ok e s →
        ReadsTree b p (chainReading links ((Expr.unary .negate e).negated n)) s) ∧
      ∀ f s, boundExpression b { r with ahead := rest } = .error f s →
        boundExpression b p = .error f s := by
  have hq : Lexed q := hp.lexed.of_leadsTo hlinks.leadsTo
  have hr : Lexed r := hq.of_leadsTo hnots.leadsTo
  constructor
  · intro e s hatom hend
    have hstart := startsOperand_of_nots hnots (startsOperand_of_atom hr hatom)
    obtain ⟨e', he', rfl⟩ := exists_operand_of_atom hr hatom
    have hoperand := (operand_of_nots hnots).1 e' s he'
    constructor
    · intro hbar
      rw [← Expr.bind_negated]
      exact readsTree_of_links hp.lexed hlinks hstart hoperand
        (stops_of_endsChain (hr.of_leadsTo hatom.leadsTo) hend hbar)
    · intro bar ch m hahead his
      exact boundExpression_of_brokenBar hp.lexed hlinks hstart hoperand hahead his
  · intro minus rest hahead his hleast
    have hminus := operand_of_minus hahead his hleast
    have hstart := startsOperand_of_nots hnots (startsOperand_of_is hahead his (by decide))
    constructor
    · intro e s h
      obtain ⟨e', s', hexpression, hbind⟩ := bind_eq_ok.mp h
      cases hbind
      rw [bind_apply_ok hexpression] at hminus
      have hreads := readsTree_of_links hp.lexed hlinks hstart
        ((operand_of_nots hnots).1 _ _ hminus) (stops_of_expression hexpression)
      rwa [Expr.bind_negated] at hreads
    · intro f s h
      rcases bind_eq_error.mp h with hexpression | ⟨_, _, -, hpure⟩
      · rw [bind_eq_error.mpr (.inl hexpression)] at hminus
        exact boundExpression_of_links_error hp.lexed hlinks hstart
          ((operand_of_nots hnots).2 _ _ hminus)
      · cases hpure

/-- The character behind a bar is not left alone: in `a | /` the name is not read. -/
theorem not_boundExpression_of_chain :
    ¬∀ (b : Bindings) (p q r s : Parser) (links : List (Expr × BinaryOp)) (n : Nat) (e : Expr),
      InText p → Links b p links q → Nots q n r → Atom b r e s → EndsChain s →
        ReadsTree b p (chainReading links (e.negated n)) s := by
  intro h
  have hahead : (Parser.ofText "a | /").ahead
      = .token ⟨.word, "a", 0⟩ (.token ⟨.symbol, "|", 2⟩ (.fault '/' 4)) := by
    have hname : scan? 'a' [' ', '|', ' ', '/'] = some (.word, [], [' ', '|', ' ', '/']) := by
      decide
    have hbar : scan? '|' [' ', '/'] = some (.symbol, [], [' ', '/']) := by decide
    change TokenStream.cut 0 ['a', ' ', '|', ' ', '/'] = _
    rw [TokenStream.cut_of_scanned hname, TokenStream.cut_of_blank (by decide),
      TokenStream.cut_of_scanned hbar, TokenStream.cut_of_blank (by decide),
      TokenStream.cut_of_not_blank (by decide)]
    rfl
  have hend : EndsChain ⟨.token ⟨.symbol, "|", 2⟩ (.fault '/' 4), 0, true⟩ := by
    refine .inr ⟨_, _, rfl, fun op q hop => ?_, by decide⟩
    cases hop with
    | sign hahead hsign his =>
        cases hahead
        have hall : ∀ op : BinaryOp, ∀ sign ∈ op.signs, Text.sameWord "|" sign = false := by
          intro op
          cases op <;> decide
        exact absurd his (by rw [Token.is, hall op _ hsign]; decide)
    | pair hahead => cases hahead
  have htext : InText (Parser.ofText "a | /") := ⟨0, _, rfl⟩
  have hatom : Atom .empty (Parser.ofText "a | /") (.column "a") _ :=
    .name hahead rfl (by decide)
  obtain ⟨tree, hrun, -⟩ := h .empty _ _ _ _ [] 0 _ htext (.nil _) (.none _) hatom hend
  obtain ⟨e, he, -⟩ := exists_operand_of_atom htext.lexed hatom
  rw [boundExpression_of_brokenBar htext.lexed (.nil _)
    (startsOperand_of_atom htext.lexed hatom) he rfl (by decide)] at hrun
  cases hrun

/-- The chain `a - NOT b`, up to the end of the text. -/
theorem boundExpression_of_chain_nots :
    InText (Parser.ofText "a - NOT b") ∧
      ∃ q r s, Links .empty (Parser.ofText "a - NOT b") [(.column "a", .sub)] q ∧ Nots q 1 r ∧
        Atom .empty r (.column "b") s ∧ EndsChain s ∧ ¬AtBrokenBar s ∧
        ReadsTree .empty (Parser.ofText "a - NOT b")
          [.operand (.column "a"), .operator .sub, .operand (.unary .not (.column "b"))] s := by
  let atB : Parser := ⟨.token ⟨.word, "b", 8⟩ (.done 9), 0, true⟩
  let atNot : Parser := { atB with ahead := .token ⟨.word, "NOT", 4⟩ atB.ahead }
  let atMinus : Parser := { atB with ahead := .token ⟨.symbol, "-", 2⟩ atNot.ahead }
  have hahead : (Parser.ofText "a - NOT b").ahead = .token ⟨.word, "a", 0⟩ atMinus.ahead := by
    have hname : scan? 'a' [' ', '-', ' ', 'N', 'O', 'T', ' ', 'b']
        = some (.word, [], [' ', '-', ' ', 'N', 'O', 'T', ' ', 'b']) := by decide
    have hsign : scan? '-' [' ', 'N', 'O', 'T', ' ', 'b']
        = some (.symbol, [], [' ', 'N', 'O', 'T', ' ', 'b']) := by decide
    have hword : scan? 'N' ['O', 'T', ' ', 'b'] = some (.word, ['O', 'T'], [' ', 'b']) := by decide
    have hlast : scan? 'b' [] = some (.word, [], []) := by decide
    have hblank : Text.isBlank ' ' = true := by decide
    change TokenStream.cut 0 ['a', ' ', '-', ' ', 'N', 'O', 'T', ' ', 'b'] = _
    rw [TokenStream.cut_of_scanned hname, TokenStream.cut_of_blank hblank,
      TokenStream.cut_of_scanned hsign, TokenStream.cut_of_blank hblank,
      TokenStream.cut_of_scanned hword, TokenStream.cut_of_blank hblank,
      TokenStream.cut_of_scanned hlast, TokenStream.cut_nil]
    rfl
  have htext : InText (Parser.ofText "a - NOT b") := ⟨0, _, rfl⟩
  have hminus : Token.is ⟨.symbol, "-", 2⟩ "-" = true := by decide
  have hnot : Token.is ⟨.word, "NOT", 4⟩ "NOT" = true := by decide
  have hfirst : Atom .empty (Parser.ofText "a - NOT b") (.column "a") atMinus :=
    .name hahead rfl (by decide)
  have hsub : Operator .sub atMinus atNot := .sign rfl (List.mem_singleton.mpr rfl) hminus
  have hlinks : Links .empty (Parser.ofText "a - NOT b") [(.column "a", .sub)] atNot :=
    .cons (.none _) hfirst hsub (.nil _)
  have hnots : Nots atNot 1 atB := .not rfl hnot (.none _)
  have hword : ∀ word ∈ ["COALESCE", "NULL", "NOT"], Token.is ⟨.word, "b", 8⟩ word = false := by
    decide
  have hlast : Atom .empty atB (.column "b") ⟨.done 9, 0, true⟩ := .name rfl rfl hword
  have hend : EndsChain ⟨.done 9, 0, true⟩ := .inl ⟨9, rfl⟩
  have hbar : ¬AtBrokenBar ⟨.done 9, 0, true⟩ := by
    rintro ⟨bar, ch, n, hahead, -⟩
    cases hahead
  obtain ⟨hchain, -⟩ := boundExpression_of_chain .empty htext hlinks hnots
  exact ⟨htext, _, _, _, hlinks, hnots, hlast, hend, hbar, (hchain _ _ hlast hend).1 hbar⟩

end OnePassSql.Parse

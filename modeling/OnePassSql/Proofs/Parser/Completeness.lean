import OnePassSql.Proofs.Faults.Expression
import OnePassSql.Proofs.Parser.Derivations

/-!
What is derived is read. Where the tokens ahead have a derivation, the parser finds nothing wrong
with them but numbers that do not fit.
-/

namespace OnePassSql.Parse

open Step TokenStream

variable {α β : Type}

/-- A number or the index of a parameter does not fit, or the budget of the parser is used up. -/
def RangeFault (fault : Fault) : Prop :=
  fault = .exhausted ∨
    ∃ n, fault = .parse .numberOutOfRange n ∨ fault = .parse .parameterOutOfRange n

/-- With a derivation ahead that ends as it should, nothing else is wrong. -/
def Covers (ends : Bool → TokenStream → Prop)
    (spans : Bool → TokenStream → List (Option Nat) → TokenStream → Prop) (x : Parse α) : Prop :=
  ∀ ⦃p fault q marks s'⦄, x p = .error fault q → spans p.suffixes p.ahead marks s' →
    ends p.suffixes s' → RangeFault fault

section Covers

variable {ends : Bool → TokenStream → Prop}
  {spans spans' : Bool → TokenStream → List (Option Nat) → TokenStream → Prop}
  {before : List Nat} {places : α → List Nat} {x : Parse α} {f : α → Parse β} {b start : Nat}
  {t : Token}

theorem covers_pure (a : α) : Covers ends spans (pure a : Parse α) :=
  fun _ _ _ _ _ hrun => nomatch hrun

theorem covers_exhausted : Covers ends spans (throw .exhausted : Parse α) := by
  intro p fault q marks s' hrun _ _
  cases hrun
  exact .inl rfl

theorem Covers.bind (hx : Covers StopsAt spans x) (htraced : Traced spans before places x)
    (hkeeps : KeepsSuffixes x) (hf : ∀ a, Covers StopsAt (Spans false · .behind) (f a)) :
    Covers StopsAt spans (x >>= f) := by
  intro p fault r marks s' hrun hspans hends
  rcases bind_eq_error.mp hrun with hxp | ⟨a, q, hxp, hfq⟩
  · exact hx hxp hspans hends
  · obtain ⟨first, htraces⟩ := htraced hxp
    obtain ⟨-, more, -, hmore⟩ := htraces.only id hspans hends
    have hsuffixes : p.suffixes = q.suffixes := hkeeps.ok hxp
    rw [hsuffixes] at hmore hends
    exact hf a hfq hmore hends

/-- A sign before an operand adds nothing that can be wrong. -/
theorem Covers.unary {x : Parse Expr} (hx : Covers StopsAt spans x) (op : UnaryOp) :
    Covers StopsAt spans (x >>= fun e => pure (Expr.unary op e)) := by
  intro p fault r marks s' hrun hspans hends
  rcases bind_eq_error.mp hrun with hxp | ⟨e, q, -, hfq⟩
  · exact hx hxp hspans hends
  · cases hfq

/-! ## Operands -/

/-- Where something is derived behind an operand, a token or the end of the text is next. -/
theorem ne_fault_of_spans {i : Bool} {s s' : TokenStream} {marks : List (Option Nat)}
    (h : Spans false i .behind s marks s') (hends : StopsAt i s') (ch : Char) (n : Nat) :
    s ≠ .fault ch n := by
  rintro rfl
  cases h with
  | nothing => exact hends.1
  | operator htakes _ => cases htakes 0 true
  | form hform _ =>
      obtain ⟨_, _, hnext, -⟩ := at_iff.mp hform.at
      cases hnext

/-- Where something is derived behind an operand, the parser sees what is next. -/
theorem exists_takes_peekOperator? {i : Bool} {s s' : TokenStream} {marks : List (Option Nat)}
    (h : Spans false i .behind s marks s') (hends : StopsAt i s') :
    ∃ found, Takes peekOperator? s found s := by
  cases h with
  | nothing => exact ⟨none, fun _ _ => peekOperator?_of_noOperator hends.1⟩
  | operator htakes _ => exact ⟨_, htakes⟩
  | form hform _ => exact ⟨none, fun _ _ => hform.peekOperator?⟩

theorem rangeFault_of_parameterHere {question : Token} {p q : Parser} {fault : Fault}
    (h : parameterHere question p = .error fault q) : RangeFault fault := by
  rw [parameterHere_apply] at h
  split at h
  next => cases h
  next =>
    cases h
    exact .inr ⟨_, .inr rfl⟩

theorem covers_question (ht : t.is "?" = true) :
    Covers StopsAt (fun i s => Spans false i .operand (.token t s)) (parameter t) := by
  rintro ⟨s, cursor, on⟩ fault q marks s' hrun hspans hends
  rw [parameter_eq_bind] at hrun
  rcases bind_eq_error.mp hrun with hplace | ⟨_, r, -, hhere⟩
  · rcases placeCursor_cases t s with
      ⟨ch, n, rfl⟩ | ⟨-, htakes⟩ | ⟨number, rest, rfl, hnumber⟩
    · obtain ⟨more, -, hmore⟩ := spans_of_question ht (fun _ _ hno => by cases hno) hspans
      exact absurd rfl (ne_fault_of_spans hmore hends ch n)
    · cases (htakes cursor on).symm.trans hplace
    · rw [placeCursor_of_number rfl hnumber] at hplace
      cases hindex : parameterIndex? number.text with
      | none =>
          rw [hindex] at hplace
          cases hplace
          exact .inr ⟨_, .inr rfl⟩
      | some n =>
          rw [hindex] at hplace
          cases hplace
  · exact rangeFault_of_parameterHere hhere

theorem covers_group (ht : t.is "(" = true)
    (hexpression : Covers StopsAt (Spans false · .operand) (expressionWithin b)) :
    Covers StopsAt (fun i s => Spans false i .operand (.token t s)) (operandFrom b start t) := by
  rw [operandFrom_of_parenthesis ht]
  intro p fault q marks s' hrun hspans hends
  obtain ⟨first, s₁, s₂, more, -, hinside, hclose, -⟩ := spans_of_group ht hspans
  have hends₁ : StopsAt true s₁ := stopsAt_of_at (hclose.at.mono (by decide)) true
  rcases bind_eq_error.mp hrun with hgroup | ⟨e, r, hgroup, hrun⟩
  · cases hread : expressionWithin b { p with suffixes := true } with
    | ok e r =>
        rw [withSuffixes, hread] at hgroup
        cases hgroup
    | error fault' r =>
        rw [withSuffixes, hread] at hgroup
        cases hgroup
        exact hexpression hread hinside hends₁
  · obtain ⟨r₂, hread, rfl⟩ := withSuffixes_eq_ok hgroup
    obtain ⟨_, htraces⟩ := (traced_withinBudget b).1.whole hread
    obtain ⟨-, -, rfl⟩ := htraces.only id hinside hends₁
    rw [bind_apply_ok (takes_expect hclose _ _)] at hrun
    cases hrun

theorem covers_call (ht : t.is "COALESCE" = true)
    (harguments :
      Covers (fun _ s => s.At [")"]) (Spans false · .arguments) (argumentsWithin b)) :
    Covers StopsAt (fun i s => Spans false i .operand (.token t s)) (operandFrom b start t) := by
  rw [operandFrom_of_coalesce ht]
  intro p fault q marks s' hrun hspans hends
  obtain ⟨s₁, first, s₂, s₃, more, -, hopen, hinside, hclose, -⟩ := spans_of_call ht hspans
  rw [Bool.or_false] at hinside
  rw [bind_apply_ok (takes_expect hopen _ _)] at hrun
  rcases bind_eq_error.mp hrun with hlist | ⟨arguments, r, hlist, hrun⟩
  · exact harguments hlist hinside hclose.at
  · obtain ⟨_, htraces⟩ := (traced_withinBudget b).2.2.1 hlist
    obtain ⟨-, -, rfl⟩ := htraces.only id hinside hclose.at
    rw [bind_apply_ok (takes_expect hclose _ _)] at hrun
    cases hrun

/-- Where an operand is derived behind a minus, the parser sees whether the least integer is
there. -/
theorem exists_leastInteger? (minus : Token) {i : Bool} {s s' : TokenStream}
    {marks : List (Option Nat)} (h : Spans false i .operand s marks s') (hends : StopsAt i s')
    (cursor : Nat) (on : Bool) : ∃ found q, leastInteger? minus ⟨s, cursor, on⟩ = .ok found q := by
  obtain ⟨u, rest, rfl⟩ : ∃ u rest, s = .token u rest := by
    cases h <;> exact ⟨_, _, rfl⟩
  by_cases hspells : SpellsLeast minus u
  · rw [spans_iff_of_alone (.inr hspells.not_operandStart)] at h
    obtain ⟨found, htakes⟩ := exists_takes_peekOperator? h hends
    rw [leastInteger?_of_spells rfl hspells, htakes]
    cases found with
    | none => exact ⟨_, _, rfl⟩
    | some found => exact ⟨_, _, rfl⟩
  · exact ⟨_, _, leastInteger?_of_not rfl hspells⟩

theorem covers_minus (ht : t.is "-" = true)
    (hexpression : Covers StopsAt (Spans false · .operand) (expressionWithin b)) :
    Covers StopsAt (fun i s => Spans false i .operand (.token t s)) (operandFrom b start t) := by
  rw [operandFrom_of_minus ht]
  rintro ⟨s, cursor, on⟩ fault q marks s' hrun hspans hends
  rw [spans_iff_of_sign (.inr ht)] at hspans
  obtain ⟨found, r, hleast⟩ := exists_leastInteger? t hspans hends cursor on
  rw [bind_apply_ok hleast] at hrun
  obtain ⟨-, -, ⟨rfl, rfl⟩ | ⟨u, rfl, -⟩⟩ := leastInteger?_eq_ok hleast
  · exact hexpression.unary .negate hrun hspans hends
  · cases hrun

theorem rangeFault_of_atom {p q : Parser} {fault : Fault} (hkind : t.kind ≠ .symbol)
    (h : atom t start p = .error fault q) : RangeFault fault := by
  unfold atom at h
  cases hk : t.kind with
  | symbol => exact absurd hk hkind
  | number =>
      simp only [hk] at h
      cases hvalue : integerOfText? t.text with
      | none =>
          rw [hvalue] at h
          cases h
          exact .inr ⟨_, .inl rfl⟩
      | some n =>
          rw [hvalue] at h
          cases h
  | string | word | quotedName =>
      simp only [hk] at h
      cases h

theorem covers_operandFrom
    (hexpression : Covers StopsAt (Spans false · .operand) (expressionWithin b))
    (hoperand : Covers StopsAt (Spans false · .operand) (operandWithin b))
    (harguments :
      Covers (fun _ s => s.At [")"]) (Spans false · .arguments) (argumentsWithin b)) :
    Covers StopsAt (fun i s => Spans false i .operand (.token t s)) (operandFrom b start t) := by
  rintro ⟨s, cursor, on⟩ fault q marks s' hrun hspans hends
  have hfirst := hspans
  cases hfirst with
  | sign his hmore =>
      rcases his with hnot | hminus
      · rw [operandFrom_of_not hnot] at hrun
        exact hoperand.unary .not hrun hmore hends
      · exact covers_minus hminus hexpression hrun hspans hends
  | atom his _ =>
      rcases his with hnull | ⟨hkind, hatom⟩
      · rw [operandFrom_of_null hnull] at hrun
        cases hrun
      · rw [operandFrom_of_atom hatom] at hrun
        exact rangeFault_of_atom hkind hrun
  | question his _ _ | numbered his _ _ =>
      rw [operandFrom_of_question his] at hrun
      exact covers_question his hrun hspans hends
  | group his _ _ _ => exact covers_group his hexpression hrun hspans hends
  | call his _ _ _ _ => exact covers_call his harguments hrun hspans hends

/-! ## The loops, within a budget -/

theorem covers_operandWithin_succ
    (hexpression : Covers StopsAt (Spans false · .operand) (expressionWithin b))
    (hoperand : Covers StopsAt (Spans false · .operand) (operandWithin b))
    (harguments :
      Covers (fun _ s => s.At [")"]) (Spans false · .arguments) (argumentsWithin b)) :
    Covers StopsAt (Spans false · .operand) (operandWithin (b + 1)) := by
  rintro ⟨ahead, cursor, on⟩ fault q marks s' hrun hspans hends
  obtain ⟨t, s, rfl⟩ : ∃ t s, ahead = .token t s := by
    cases hspans <;> exact ⟨_, _, rfl⟩
  rw [operandWithin_succ, bind_apply_ok (position_apply _),
    bind_apply_ok (expectToken_of_token rfl)] at hrun
  exact covers_operandFrom hexpression hoperand harguments hrun hspans hends

theorem covers_argumentsWithin_succ
    (hexpression : Covers StopsAt (Spans false · .operand) (expressionWithin b))
    (harguments :
      Covers (fun _ s => s.At [")"]) (Spans false · .arguments) (argumentsWithin b)) :
    Covers (fun _ s => s.At [")"]) (Spans false · .arguments) (argumentsWithin (b + 1)) := by
  rintro ⟨s, cursor, on⟩ fault q marks s' hrun hspans hat
  cases hspans with
  | last hspans =>
      have hends : StopsAt on s' := stopsAt_of_at (hat.mono (by decide)) _
      rcases bind_eq_error.mp hrun with hread | ⟨e, r, hread, hrun⟩
      · exact hexpression hread hspans hends
      · obtain ⟨_, htraces⟩ := (traced_withinBudget b).1.whole hread
        obtain ⟨-, -, rfl⟩ := htraces.only id hspans hends
        have hno : Takes (accept ",") r.ahead false r.ahead :=
          takes_accept_of_at hat (by decide)
        rw [bind_apply_ok (hno _ _)] at hrun
        cases hrun
  | more hspans hword hmore =>
      have hends := stopsAt_of_at (hword.at.mono (by decide)) on
      rcases bind_eq_error.mp hrun with hread | ⟨e, r, hread, hrun⟩
      · exact hexpression hread hspans hends
      · obtain ⟨_, htraces⟩ := (traced_withinBudget b).1.whole hread
        obtain ⟨-, -, rfl⟩ := htraces.only id hspans hends
        have hsuffixes : on = r.suffixes := (keepsSuffixes_withinBudget b).1.ok hread
        rw [bind_apply_ok (takes_accept hword _ _)] at hrun
        rw [hsuffixes] at hmore
        rcases bind_eq_error.mp hrun with hrest | ⟨rest, r₂, -, hrun⟩
        · exact harguments hrest hmore hat
        · cases hrun

theorem covers_climbWithin_succ
    (hoperand : Covers StopsAt (Spans false · .operand) (operandWithin b))
    (hclimb : ∀ left least, Covers StopsAt (Spans false · .behind) (climbWithin b left least))
    (htighten : ∀ op right, Covers StopsAt (Spans false · .behind) (tightenWithin b op right))
    (left : Expr) (least : Nat) :
    Covers StopsAt (Spans false · .behind) (climbWithin (b + 1) left least) := by
  rintro ⟨s, cursor, on⟩ fault q marks s' hrun hspans hends
  obtain ⟨found, htakes⟩ := exists_takes_peekOperator? hspans hends
  rw [climbWithin_succ, bind_apply_ok (htakes cursor on)] at hrun
  cases found with
  | some found =>
      obtain ⟨op, behind⟩ := found
      by_cases hloose : op.precedence < least
      · rw [climbFrom_of_loose hloose] at hrun
        cases hrun
      · rw [climbFrom_of_tight hloose] at hrun
        have hrest := hoperand.bind (traced_withinBudget b).2.1 (keepsSuffixes_withinBudget b).2.1
          fun operand => (htighten op operand).bind ((traced_withinBudget b).2.2.2.2 op operand)
            ((keepsSuffixes_withinBudget b).2.2.2.2 op operand)
            fun right => hclimb (.binary op left right) least
        exact hrest hrun (spans_of_operator htakes hends.1 hspans) hends
  | none =>
      cases on with
      | false =>
          rw [climbFrom_of_off] at hrun
          cases hrun
      | true =>
          cases hspans with
          | nothing =>
              have hstops : Stops ⟨s, cursor, true⟩ := stops_iff_stopsAt.mpr hends
              rw [climbFrom_of_suffix? (hstops.2 rfl left)] at hrun
              cases hrun
          | operator htakes' _ => cases (htakes 0 true).symm.trans (htakes' 0 true)
          | form hform hmore =>
              rw [climbFrom_of_suffix? (hform.takes_suffix? left cursor true)] at hrun
              exact hclimb _ least hrun hmore hends

theorem covers_tightenWithin_succ
    (hclimb : ∀ left least, Covers StopsAt (Spans false · .behind) (climbWithin b left least))
    (htighten : ∀ op right, Covers StopsAt (Spans false · .behind) (tightenWithin b op right))
    (op : BinaryOp) (right : Expr) :
    Covers StopsAt (Spans false · .behind) (tightenWithin (b + 1) op right) := by
  rintro ⟨s, cursor, on⟩ fault q marks s' hrun hspans hends
  obtain ⟨found, htakes⟩ := exists_takes_peekOperator? hspans hends
  rw [tightenWithin_succ, bind_apply_ok (htakes cursor on)] at hrun
  have hfrom : Covers StopsAt (Spans false · .behind) (tightenFrom b op right found) := by
    cases found with
    | none => exact covers_pure _
    | some found =>
        unfold tightenFrom
        dsimp only
        split
        · exact covers_pure _
        · exact (hclimb right found.1.precedence).bind
            ((traced_withinBudget b).2.2.2.1 right found.1.precedence)
            ((keepsSuffixes_withinBudget b).2.2.2.1 right found.1.precedence)
            fun right => htighten op right
  exact hfrom hrun hspans hends

theorem covers_withinBudget (b : Nat) :
    Covers StopsAt (Spans false · .operand) (expressionWithin b) ∧
      Covers StopsAt (Spans false · .operand) (operandWithin b) ∧
      Covers (fun _ s => s.At [")"]) (Spans false · .arguments) (argumentsWithin b) ∧
      (∀ left least, Covers StopsAt (Spans false · .behind) (climbWithin b left least)) ∧
      ∀ op right, Covers StopsAt (Spans false · .behind) (tightenWithin b op right) := by
  induction b with
  | zero =>
      exact ⟨covers_exhausted, covers_exhausted, covers_exhausted, fun _ _ => covers_exhausted,
        fun _ _ => covers_exhausted⟩
  | succ b ih =>
      obtain ⟨hexpression, hoperand, harguments, hclimb, htighten⟩ := ih
      exact ⟨hoperand.bind (traced_withinBudget b).2.1 (keepsSuffixes_withinBudget b).2.1
          fun left => hclimb left 0,
        covers_operandWithin_succ hexpression hoperand harguments,
        covers_argumentsWithin_succ hexpression harguments,
        covers_climbWithin_succ hoperand hclimb htighten,
        covers_tightenWithin_succ hclimb htighten⟩

end Covers

section Derived

variable {p : Parser} {marks : List (Option Nat)} {s s' : TokenStream} {fault : Fault}

/-- The budget is enough, so only a number or an index can be wrong. -/
theorem RangeFault.of_readingFault (h : RangeFault fault) (hreading : s.ReadingFault fault) :
    ∃ n, fault = .parse .numberOutOfRange n ∨ fault = .parse .parameterOutOfRange n := by
  rcases h with rfl | h
  · cases hreading
  · exact h

/-- An expression that is derived from the tokens ahead is read, unless a number in it or the index
of a parameter does not fit. -/
theorem expression_of_spans (h : Spans false p.suffixes .operand p.ahead marks s')
    (hends : StopsAt p.suffixes s') :
    (∃ e q, expression p = .ok e q ∧ q.ahead = s' ∧
        AsksFor [] e.parameters p.cursor marks q.cursor) ∨
      ∃ n q, expression p = .error (.parse .numberOutOfRange n) q ∨
        expression p = .error (.parse .parameterOutOfRange n) q := by
  cases hread : expression p with
  | ok e q =>
      obtain ⟨_, htraces⟩ := tracedWhole_expression hread
      obtain ⟨-, rfl, rfl⟩ := htraces.only id h hends
      exact .inl ⟨e, q, rfl, rfl, htraces.asks⟩
  | error fault q =>
      have hreading := (readsIn_expression p (.refl p.ahead)).error hread
      have hrange := (covers_withinBudget _).1 hread h hends
      obtain ⟨n, rfl | rfl⟩ := hrange.of_readingFault hreading
      · exact .inr ⟨n, q, .inl rfl⟩
      · exact .inr ⟨n, q, .inr rfl⟩

/-- An operand that the tokens ahead are derived to start with is read, with what follows it left, or
there is such a fault. -/
theorem operand_of_spans (h : Spans false p.suffixes .operand p.ahead marks s')
    (hends : StopsAt p.suffixes s') :
    (∃ e q first more, operand p = .ok e q ∧ marks = first ++ more ∧
        AsksFor [] e.parameters p.cursor first q.cursor ∧
        Spans false p.suffixes .behind q.ahead more s') ∨
      ∃ n q, operand p = .error (.parse .numberOutOfRange n) q ∨
        operand p = .error (.parse .parameterOutOfRange n) q := by
  cases hread : operand p with
  | ok e q =>
      obtain ⟨first, htraces⟩ := traced_operand hread
      obtain ⟨-, more, hmarks, hmore⟩ := htraces.only id h hends
      exact .inl ⟨e, q, first, more, rfl, hmarks, htraces.asks, hmore⟩
  | error fault q =>
      have hreading := (readsIn_operand p (.refl p.ahead)).error hread
      have hrange := (covers_withinBudget _).2.1 hread h hends
      obtain ⟨n, rfl | rfl⟩ := hrange.of_readingFault hreading
      · exact .inr ⟨n, q, .inl rfl⟩
      · exact .inr ⟨n, q, .inr rfl⟩

end Derived

end OnePassSql.Parse

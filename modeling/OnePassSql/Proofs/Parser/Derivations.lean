import OnePassSql.Proofs.Parser.Grammar

/-!
Runs and derivations. What an expression is read from has a derivation in the grammar, and no other
one: each derivation of the tokens goes along with the run. So what a derivation says of the tokens
is true of the tree: its places are what the question marks ask for, and the forms behind operands
can be off wherever the derivation has none.
-/

namespace OnePassSql

/-- The forms have no places of their own. -/
theorem PostfixForm.parameters_apply (form : PostfixForm) (e : Expr) :
    (form.apply e).parameters = e.parameters := by
  cases form <;> rfl

namespace Parse

open Step TokenStream

variable {α β : Type}

/-! ## Runs with their derivations -/

/-- Where an expression ends: nothing stands there that it goes on with. -/
def StopsAt (suffixes : Bool) (s : TokenStream) : Prop :=
  NoOperator s ∧ (suffixes = true → ¬s.At suffixStarts)

/-- A run takes tokens with the question marks `first`, and the places of what it gives are those
that were there before and what the question marks ask for. It starts a derivation, whatever follows;
and each derivation from its tokens that has forms only where they are read with the forms on as
given starts so, and it does not show in the run how forms are on. -/
structure Traces (spans : Bool → TokenStream → List (Option Nat) → TokenStream → Prop)
    (before after : List Nat) (x : Parse α) (p : Parser) (a : α) (q : Parser)
    (first : List (Option Nat)) : Prop where
  asks : AsksFor before after p.cursor first q.cursor
  derives : ∀ ⦃more s'⦄, Spans false p.suffixes .behind q.ahead more s' →
    spans p.suffixes p.ahead (first ++ more) s'
  only : ∀ ⦃i marks s'⦄, (i = true → p.suffixes = true) → spans i p.ahead marks s' →
    StopsAt p.suffixes s' → x { p with suffixes := i } = .ok a { q with suffixes := i } ∧
      ∃ more, marks = first ++ more ∧ Spans false i .behind q.ahead more s'

/-- Each run is one along a derivation. -/
def Traced (spans : Bool → TokenStream → List (Option Nat) → TokenStream → Prop)
    (before : List Nat) (places : α → List Nat) (x : Parse α) : Prop :=
  ∀ ⦃p a q⦄, x p = .ok a q → ∃ first, Traces spans before (places a) x p a q first

section Traced

variable {spans spans' : Bool → TokenStream → List (Option Nat) → TokenStream → Prop}
  {before after : List Nat} {places : α → List Nat} {places' : β → List Nat} {x y : Parse α}
  {f : α → Parse β} {b : Nat}

/-- A run that does what another does from further on. -/
theorem Traces.from {s s₁ : TokenStream} {cursor : Nat} {on : Bool} {a : α} {q : Parser}
    {first : List (Option Nat)} (h : Traces spans before after x ⟨s₁, cursor, on⟩ a q first)
    (hrun : ∀ i, y ⟨s, cursor, i⟩ = x ⟨s₁, cursor, i⟩)
    (hderives : ∀ marks s', spans on s₁ marks s' → spans' on s marks s')
    (honly : ∀ i marks s', (i = true → on = true) → StopsAt on s' → spans' i s marks s' →
      spans i s₁ marks s') :
    Traces spans' before after y ⟨s, cursor, on⟩ a q first :=
  ⟨h.asks, fun _ _ hmore => hderives _ _ (h.derives hmore), fun i marks s' hi hspans hends => by
    rw [hrun]
    exact h.only hi (honly i marks s' hi hends hspans) hends⟩

theorem Traced.of_iff (h : Traced spans before places x)
    (hiff : ∀ i s marks s', spans' i s marks s' ↔ spans i s marks s') :
    Traced spans' before places x := fun _ _ _ hrun =>
  (h hrun).imp fun _ htraces => htraces.from (fun _ => rfl) (fun _ _ => (hiff _ _ _ _).mpr)
    fun _ _ _ _ _ => (hiff _ _ _ _).mp

theorem traced_pure {a : α} (h : places a = before) :
    Traced (Spans false · .behind) before places (pure a) := by
  intro p a' q hrun
  cases hrun
  exact ⟨[], asksFor_nothing h, fun _ _ hmore => hmore,
    fun i marks s' _ hspans _ => ⟨rfl, marks, rfl, hspans⟩⟩

theorem traced_throw (fault : Fault) : Traced spans before places (throw fault : Parse α) :=
  fun _ _ _ hrun => nomatch hrun

theorem Traced.bind (hx : Traced spans before places x) (hkeeps : KeepsSuffixes x)
    (hf : ∀ a, Traced (Spans false · .behind) (places a) places' (f a)) :
    Traced spans before places' (x >>= f) := by
  intro p c r hrun
  obtain ⟨a, q, hxp, hfq⟩ := bind_eq_ok.mp hrun
  have hsuffixes : p.suffixes = q.suffixes := hkeeps.ok hxp
  obtain ⟨first, htraces⟩ := hx hxp
  obtain ⟨second, hthen⟩ := hf a hfq
  refine ⟨first ++ second, htraces.asks.trans hthen.asks, fun more s' hmore => ?_,
    fun i marks s' hi hspans hends => ?_⟩
  · rw [hsuffixes] at hmore
    rw [List.append_assoc]
    exact htraces.derives (hsuffixes ▸ hthen.derives hmore)
  · obtain ⟨hx', more, rfl, hmore⟩ := htraces.only hi hspans hends
    rw [hsuffixes] at hi hends
    obtain ⟨hf', more', rfl, hmore'⟩ := hthen.only hi hmore hends
    exact ⟨bind_eq_ok.mpr ⟨a, _, hx', hf'⟩, more', (List.append_assoc ..).symm, hmore'⟩

theorem Traced.within (hx : Traced spans before places x) (outer : List Nat) :
    Traced spans (outer ++ before) (fun a => outer ++ places a) x := fun _ _ _ hrun =>
  (hx hrun).imp fun _ htraces => ⟨htraces.asks.within outer, htraces.derives, htraces.only⟩

theorem Traced.unary {x : Parse Expr} (hx : Traced spans [] Expr.parameters x)
    (hkeeps : KeepsSuffixes x) (op : UnaryOp) :
    Traced spans [] Expr.parameters (x >>= fun e => pure (.unary op e)) :=
  hx.bind hkeeps fun _ => traced_pure rfl

end Traced

/-- A run that takes all of a part, up to where it ends. -/
structure TracesWhole (part : Part) (ends : Bool → TokenStream → Prop) (places : List Nat)
    (x : Parse α) (p : Parser) (a : α) (q : Parser) (marks : List (Option Nat)) : Prop where
  asks : AsksFor [] places p.cursor marks q.cursor
  derives : Spans false p.suffixes part p.ahead marks q.ahead
  only : ∀ ⦃i marks' s'⦄, (i = true → p.suffixes = true) →
    Spans false i part p.ahead marks' s' → ends p.suffixes s' →
      x { p with suffixes := i } = .ok a { q with suffixes := i } ∧ marks' = marks ∧ s' = q.ahead

/-- Each run takes all of the part. -/
def TracedWhole (part : Part) (ends : Bool → TokenStream → Prop) (places : α → List Nat)
    (x : Parse α) : Prop :=
  ∀ ⦃p a q⦄, x p = .ok a q → ∃ marks, TracesWhole part ends (places a) x p a q marks

theorem tracedWhole_throw {part : Part} {ends : Bool → TokenStream → Prop} {places : α → List Nat}
    (fault : Fault) : TracedWhole part ends places (throw fault : Parse α) :=
  fun _ _ _ hrun => nomatch hrun

/-! ## Where expressions end -/

section Stopping

variable {b : Nat}

theorem stops_iff_stopsAt {p : Parser} : Stops p ↔ StopsAt p.suffixes p.ahead := by
  constructor
  · intro h
    exact ⟨noOperator_of_peekOperator? h.1, (stops_iff h.1).mp h⟩
  · rintro ⟨hop, hnot⟩
    exact (stops_iff (peekOperator?_of_noOperator hop)).mpr hnot

/-- Behind a whole expression nothing more is derived. -/
theorem eq_of_spans_behind {i suffixes : Bool} {s s' : TokenStream} {marks : List (Option Nat)}
    (h : Spans false i .behind s marks s') (hs : StopsAt suffixes s)
    (hi : i = true → suffixes = true) : marks = [] ∧ s' = s := by
  cases h with
  | nothing => exact ⟨rfl, rfl⟩
  | operator htakes _ =>
      have hnone := peekOperator?_of_noOperator (p := ⟨s, 0, true⟩) hs.1
      rw [htakes 0 true] at hnone
      cases hnone
  | form hform _ => exact absurd hform.at (hs.2 (hi rfl))

/-- With an operator next, an operand is derived behind it. -/
theorem spans_of_operator {i : Bool} {op : BinaryOp} {s s₁ s' : TokenStream}
    {marks : List (Option Nat)} (htakes : Takes peekOperator? s (some (op, s₁)) s)
    (hs' : NoOperator s') (h : Spans false i .behind s marks s') :
    Spans false i .operand s₁ marks s' := by
  cases h with
  | nothing =>
      have hnone := peekOperator?_of_noOperator (p := ⟨s, 0, true⟩) hs'
      rw [htakes] at hnone
      cases hnone
  | form hform _ =>
      have hnone := hform.peekOperator? (p := ⟨s, 0, true⟩)
      rw [htakes] at hnone
      cases hnone
  | operator htakes' hmore =>
      cases (htakes 0 true).symm.trans (htakes' 0 true)
      exact hmore

theorem stopsAt_of_at {s : TokenStream} (h : s.At [",", ")"]) (suffixes : Bool) :
    StopsAt suffixes s := by
  obtain ⟨t, rest, rfl, word, hmem, his⟩ := at_iff.mp h
  have hall : ∀ word ∈ [",", ")"], (pairedSigns ⟨.word, word, 0⟩ = [] ∧
      meaning? singleSigns ⟨.word, word, 0⟩ = none) ∧
        ∀ start ∈ suffixStarts, Text.sameWord word start = false := by decide
  obtain ⟨⟨hpaired, hsingle⟩, hstarts⟩ := hall word hmem
  constructor
  · exact noOperator_of_peekOperator? (p := ⟨.token t rest, 0, true⟩)
      (peekOperator?_of_is rfl his hpaired hsingle)
  · intro _ hat
    obtain ⟨_, _, ht, start, hstart, hstarts'⟩ := at_iff.mp hat
    cases ht
    rw [is_eq_of_is his, hstarts start hstart] at hstarts'
    cases hstarts'

theorem stops_of_expressionWithin {p q : Parser} {e : Expr} (h : expressionWithin b p = .ok e q) :
    Stops q := by
  cases b with
  | zero => cases h
  | succ b =>
      obtain ⟨left, r, -, hclimb⟩ := bind_eq_ok.mp h
      exact stops_of_climbWithin hclimb

/-- A run of an expression takes all of it. -/
theorem Traced.whole
    (h : Traced (Spans false · .operand) [] Expr.parameters (expressionWithin b)) :
    TracedWhole .operand StopsAt Expr.parameters (expressionWithin b) := by
  intro p e q hrun
  obtain ⟨first, htraces⟩ := h hrun
  refine ⟨first, htraces.asks, ?_, fun i marks s' hi hspans hends => ?_⟩
  · rw [← List.append_nil first]
    exact htraces.derives .nothing
  · obtain ⟨hrun', more, rfl, hmore⟩ := htraces.only hi hspans hends
    have hsuffixes : p.suffixes = q.suffixes := (keepsSuffixes_withinBudget b).1.ok hrun
    rw [hsuffixes] at hi
    obtain ⟨rfl, rfl⟩ :=
      eq_of_spans_behind hmore (stops_iff_stopsAt.mp (stops_of_expressionWithin hrun)) hi
    exact ⟨hrun', List.append_nil first, rfl⟩

end Stopping

/-! ## Operands -/

section Operands

variable {b start : Nat} {t : Token}

theorem traced_question (ht : t.is "?" = true) :
    Traced (fun i s => Spans false i .operand (.token t s)) [] Expr.parameters (parameter t) := by
  intro p e q h
  obtain ⟨mark, s, rfl, rfl, hrange, hsame, hmark⟩ := parameter_eq_ok h
  refine ⟨[mark], asksFor_mark mark hrange, fun more s' hmore => ?_,
    fun i marks s' _ hspans _ => ⟨hsame i, ?_⟩⟩
  · obtain ⟨rfl, rfl, hplain⟩ | ⟨number, rfl, hahead, hnumber⟩ := hmark
    · exact .question ht hplain hmore
    · rw [hahead]
      exact .numbered ht hnumber hmore
  · obtain ⟨rfl, rfl, hplain⟩ | ⟨number, rfl, hahead, hnumber⟩ := hmark
    · exact spans_of_question ht hplain hspans
    · rw [hahead] at hspans
      exact spans_of_numbered ht hnumber hspans

theorem traced_group (ht : t.is "(" = true)
    (hexpression : TracedWhole .operand StopsAt Expr.parameters (expressionWithin b)) :
    Traced (fun i s => Spans false i .operand (.token t s)) [] Expr.parameters
      (operandFrom b start t) := by
  rw [operandFrom_of_parenthesis ht]
  rintro ⟨s, cursor, on⟩ e q h
  obtain ⟨e, r, hgroup, h⟩ := bind_eq_ok.mp h
  obtain ⟨r₂, hinside, rfl⟩ := withSuffixes_eq_ok hgroup
  obtain ⟨first, htraces⟩ := hexpression hinside
  obtain ⟨_, r₃, hexpect, h⟩ := bind_eq_ok.mp h
  obtain ⟨hclose, hr₃⟩ := exists_word_of_expect hexpect
  cases h
  refine ⟨first, ?_, fun more s' hmore => .group ht htraces.derives hclose hmore,
    fun i marks s' _ hspans _ => ?_⟩
  · rw [hr₃]
    exact htraces.asks
  · obtain ⟨inside, s₁, s₂, more, rfl, hspans, hwords, hmore⟩ := spans_of_group ht hspans
    obtain ⟨-, rfl, rfl⟩ := htraces.only (fun _ => rfl) hspans
      (stopsAt_of_at (hwords.at.mono (by decide)) _)
    have hgroup' : withSuffixes true (expressionWithin b) ⟨s, cursor, i⟩
        = .ok e { r₂ with suffixes := i } := by
      rw [withSuffixes, hinside]
    cases hclose.right_unique hwords
    refine ⟨?_, more, rfl, hmore⟩
    rw [bind_apply_ok hgroup', bind_apply_ok (takes_expect hwords _ _), hr₃]
    rfl

theorem traced_call (ht : t.is "COALESCE" = true) (harguments :
      TracedWhole .arguments (fun _ s => s.At [")"]) Expr.parametersAll (argumentsWithin b)) :
    Traced (fun i s => Spans false i .operand (.token t s)) [] Expr.parameters
      (operandFrom b start t) := by
  rw [operandFrom_of_coalesce ht]
  rintro ⟨s, cursor, on⟩ e q h
  obtain ⟨_, r, hexpect, h⟩ := bind_eq_ok.mp h
  obtain ⟨hopen, hr⟩ := exists_word_of_expect hexpect
  obtain ⟨arguments, r₁, hlist, h⟩ := bind_eq_ok.mp h
  obtain ⟨first, htraces⟩ := harguments hlist
  rw [hr] at htraces
  obtain ⟨_, r₂, hexpect', h⟩ := bind_eq_ok.mp h
  obtain ⟨hclose, hr₂⟩ := exists_word_of_expect hexpect'
  cases h
  refine ⟨first, ?_, fun more s' hmore => .call ht hopen ?_ hclose hmore,
    fun i marks s' hi hspans _ => ?_⟩
  · rw [hr₂]
    exact htraces.asks
  · rw [Bool.or_false]
    exact htraces.derives
  · obtain ⟨s₁, inside, s₂, s₃, more, rfl, hopen', hspans, hclose', hmore⟩ :=
      spans_of_call ht hspans
    cases hopen.right_unique hopen'
    rw [Bool.or_false] at hspans
    obtain ⟨hlist', rfl, rfl⟩ := htraces.only hi hspans hclose'.at
    cases hclose.right_unique hclose'
    refine ⟨?_, more, rfl, hmore⟩
    rw [bind_apply_ok (takes_expect hopen _ _), bind_apply_ok hlist',
      bind_apply_ok (takes_expect hclose _ _), hr₂]
    rfl

theorem traced_minus (ht : t.is "-" = true)
    (hexpression : Traced (Spans false · .operand) [] Expr.parameters (expressionWithin b)) :
    Traced (fun i s => Spans false i .operand (.token t s)) [] Expr.parameters
      (operandFrom b start t) := by
  rw [operandFrom_of_minus ht]
  rintro ⟨s, cursor, on⟩ e q h
  obtain ⟨found, r, hleast, h⟩ := bind_eq_ok.mp h
  obtain ⟨htakes, hr, ⟨rfl, rfl⟩ | ⟨u, rfl, hu, hspells, -⟩⟩ := leastInteger?_eq_ok hleast
  · obtain ⟨first, htraces⟩ :=
      hexpression.unary (keepsSuffixes_withinBudget b).1 .negate h
    exact ⟨first, htraces.from (fun i => bind_apply_ok (htakes cursor i) _)
      (fun _ _ => (spans_iff_of_sign (.inr ht)).mpr)
      fun _ _ _ _ _ => (spans_iff_of_sign (.inr ht)).mp⟩
  · cases h
    obtain ⟨s₁, _, _⟩ := q
    cases hr
    dsimp only at hu
    subst hu
    have halone : ∀ i marks s', Spans false i .operand (.token t (.token u s₁)) marks s'
        ↔ Spans false i .behind s₁ marks s' := fun _ _ _ =>
      (spans_iff_of_sign (.inr ht)).trans (spans_iff_of_alone (.inr hspells.not_operandStart))
    exact ⟨[], asksFor_nothing rfl, fun more s' => (halone _ _ _).mpr,
      fun i marks s' _ hspans _ => ⟨bind_apply_ok (htakes cursor i) _, marks, rfl,
        (halone _ _ _).mp hspans⟩⟩

/-- An operand goes along with a derivation by its first token. -/
theorem traced_operandFrom
    (hexpression : Traced (Spans false · .operand) [] Expr.parameters (expressionWithin b))
    (hoperand : Traced (Spans false · .operand) [] Expr.parameters (operandWithin b))
    (harguments :
      TracedWhole .arguments (fun _ s => s.At [")"]) Expr.parametersAll (argumentsWithin b)) :
    Traced (fun i s => Spans false i .operand (.token t s)) [] Expr.parameters
      (operandFrom b start t) := by
  by_cases hcoalesce : t.is "COALESCE" = true
  · exact traced_call hcoalesce harguments
  by_cases hnull : t.is "NULL" = true
  · rw [operandFrom_of_null hnull]
    exact Traced.of_iff (traced_pure rfl) fun _ _ _ _ => spans_iff_of_alone (.inl hnull)
  by_cases hnot : t.is "NOT" = true
  · rw [operandFrom_of_not hnot]
    exact (hoperand.unary (keepsSuffixes_withinBudget b).2.1 .not).of_iff
      fun _ _ _ _ => spans_iff_of_sign (.inl hnot)
  by_cases hopen : t.is "(" = true
  · exact traced_group hopen hexpression.whole
  by_cases hquestion : t.is "?" = true
  · rw [operandFrom_of_question hquestion]
    exact traced_question hquestion
  by_cases hminus : t.is "-" = true
  · exact traced_minus hminus hexpression
  have hatom : ∀ word ∈ operandStarts, t.is word = false := by
    simp only [operandStarts, List.forall_mem_cons]
    simp [hcoalesce, hnull, hnot, hopen, hquestion, hminus]
  rw [operandFrom_of_atom hatom]
  intro p e q h
  obtain ⟨hkind, rfl, hplaces, hsame⟩ := atom_eq_ok h
  exact ⟨[], asksFor_nothing hplaces, fun _ _ => (spans_iff_of_alone (.inr ⟨hkind, hatom⟩)).mpr,
    fun i marks s' _ hspans _ =>
      ⟨hsame _, marks, rfl, (spans_iff_of_alone (.inr ⟨hkind, hatom⟩)).mp hspans⟩⟩

end Operands

/-! ## The loops, within a budget -/

section Loops

variable {b : Nat}

theorem traced_operandWithin_succ
    (hexpression : Traced (Spans false · .operand) [] Expr.parameters (expressionWithin b))
    (hoperand : Traced (Spans false · .operand) [] Expr.parameters (operandWithin b))
    (harguments :
      TracedWhole .arguments (fun _ s => s.At [")"]) Expr.parametersAll (argumentsWithin b)) :
    Traced (Spans false · .operand) [] Expr.parameters (operandWithin (b + 1)) := by
  rintro ⟨ahead, cursor, on⟩ e q h
  rw [operandWithin_succ] at h ⊢
  obtain ⟨start, _, hposition, h⟩ := bind_eq_ok.mp h
  cases hposition
  obtain ⟨t, _, ht, h⟩ := bind_eq_ok.mp h
  obtain ⟨s, rfl, rfl⟩ := expectToken_eq_ok ht
  obtain ⟨first, htraces⟩ := traced_operandFrom hexpression hoperand harguments h
  refine ⟨first, htraces.from (fun i => ?_) (fun _ _ => id) fun _ _ _ _ _ => id⟩
  rw [bind_apply_ok (position_apply _), bind_apply_ok (expectToken_of_token rfl)]
  rfl

/-- A list starts with the expression that is read there. It ends behind it, or goes on behind a
comma. -/
theorem TracesWhole.arguments {x : Parse Expr} {places : List Nat} {p r : Parser} {e : Expr}
    {first : List (Option Nat)} (h : TracesWhole .operand StopsAt places x p e r first)
    ⦃i : Bool⦄ ⦃marks : List (Option Nat)⦄ ⦃s' : TokenStream⦄ (hi : i = true → p.suffixes = true)
    (hspans : Spans false i .arguments p.ahead marks s') (hat : s'.At [")"]) :
    x { p with suffixes := i } = .ok e { r with suffixes := i } ∧
      (marks = first ∧ s' = r.ahead ∧ Takes (accept ",") r.ahead false r.ahead ∨
        ∃ s₁ more, marks = first ++ more ∧ Words [","] r.ahead s₁ ∧
          Spans false i .arguments s₁ more s') := by
  cases hspans with
  | last hspans =>
      obtain ⟨hx, rfl, rfl⟩ := h.only hi hspans (stopsAt_of_at (hat.mono (by decide)) _)
      exact ⟨hx, .inl ⟨rfl, rfl, takes_accept_of_at hat (by decide)⟩⟩
  | more hspans hword hmore =>
      obtain ⟨hx, rfl, rfl⟩ := h.only hi hspans (stopsAt_of_at (hword.at.mono (by decide)) _)
      exact ⟨hx, .inr ⟨_, _, rfl, hword, hmore⟩⟩

theorem tracedWhole_argumentsWithin_succ
    (hexpression : TracedWhole .operand StopsAt Expr.parameters (expressionWithin b))
    (harguments :
      TracedWhole .arguments (fun _ s => s.At [")"]) Expr.parametersAll (argumentsWithin b)) :
    TracedWhole .arguments (fun _ s => s.At [")"]) Expr.parametersAll
      (argumentsWithin (b + 1)) := by
  intro p es q h
  obtain ⟨e, r, hfirst, h⟩ := bind_eq_ok.mp h
  obtain ⟨first, htraces⟩ := hexpression hfirst
  have hsuffixes : p.suffixes = r.suffixes := (keepsSuffixes_withinBudget b).1.ok hfirst
  obtain ⟨comma, r₁, hcomma, h⟩ := bind_eq_ok.mp h
  cases comma with
  | false =>
      cases h
      obtain ⟨-, rfl⟩ | ⟨hmore, -⟩ := accept_eq_ok hcomma
      · refine ⟨first, ?_, .last htraces.derives, fun i marks s' hi hspans hat => ?_⟩
        · rw [Expr.parametersAll, Expr.parametersAll, List.append_nil]
          exact htraces.asks
        · obtain ⟨hx, ⟨rfl, rfl, hno⟩ | ⟨_, _, -, hword, -⟩⟩ := htraces.arguments hi hspans hat
          · refine ⟨bind_eq_ok.mpr ⟨e, _, hx, ?_⟩, rfl, rfl⟩
            rw [bind_apply_ok (hno q.cursor i)]
            rfl
          · cases (takes_accept hword q.cursor q.suffixes).symm.trans hcomma
      · cases hmore
  | true =>
      obtain ⟨rest, r₂, hrest, h⟩ := bind_eq_ok.mp h
      cases h
      obtain ⟨hword, hr₁⟩ := exists_word_of_accept hcomma
      obtain ⟨more, hthen⟩ := harguments hrest
      rw [hr₁] at hthen
      have hasks := hthen.asks.within e.parameters
      rw [List.append_nil] at hasks
      refine ⟨first ++ more, htraces.asks.trans hasks, .more htraces.derives hword ?_,
        fun i marks s' hi hspans hat => ?_⟩
      · rw [hsuffixes]
        exact hthen.derives
      · obtain ⟨hx, ⟨-, -, hno⟩ | ⟨s₁, _, rfl, hword', hmore⟩⟩ := htraces.arguments hi hspans hat
        · cases (hno r.cursor r.suffixes).symm.trans hcomma
        · cases hword.right_unique hword'
          rw [hsuffixes] at hi
          obtain ⟨hrest', rfl, rfl⟩ := hthen.only hi hmore hat
          refine ⟨bind_eq_ok.mpr ⟨e, _, hx, ?_⟩, rfl, rfl⟩
          rw [bind_apply_ok (takes_accept hword r.cursor i)]
          exact bind_eq_ok.mpr ⟨rest, _, hrest', rfl⟩

theorem climbFrom_of_loose {left : Expr} {least : Nat} {op : BinaryOp} {s : TokenStream}
    (h : op.precedence < least) : climbFrom b left least (some (op, s)) = pure left :=
  if_pos h

theorem climbFrom_of_tight {left : Expr} {least : Nat} {op : BinaryOp} {s : TokenStream}
    (h : ¬op.precedence < least) (p : Parser) :
    climbFrom b left least (some (op, s)) p = (do
      let operand ← operandWithin b
      let right ← tightenWithin b op operand
      climbWithin b (.binary op left right) least : Parse Expr) { p with ahead := s } :=
  congrFun (if_neg h) p

theorem climbFrom_of_off (left : Expr) (least : Nat) (s : TokenStream) (cursor : Nat) :
    climbFrom b left least none ⟨s, cursor, false⟩ = .ok left ⟨s, cursor, false⟩ := rfl

theorem climbFrom_of_on (left : Expr) (least : Nat) (s : TokenStream) (cursor : Nat) :
    climbFrom b left least none ⟨s, cursor, true⟩ = (do
      match ← suffix? left with
      | some e => climbWithin b e least
      | none => return left : Parse Expr) ⟨s, cursor, true⟩ := rfl

theorem climbFrom_of_suffix? {left : Expr} {s : TokenStream} {cursor : Nat} {found : Option Expr}
    {r : Parser} (h : suffix? left ⟨s, cursor, true⟩ = .ok found r) (least : Nat) :
    climbFrom b left least none ⟨s, cursor, true⟩
      = found.elim (.ok left r) fun e => climbWithin b e least r := by
  rw [climbFrom_of_on, bind_apply_ok h]
  cases found <;> rfl

/-- With no operator next, climbing goes on with the form that is next, if there is one and forms are
on. -/
theorem traces_climbFrom_none
    (hclimb : ∀ left least,
      Traced (Spans false · .behind) left.parameters Expr.parameters (climbWithin b left least))
    (left : Expr) (least : Nat) {s : TokenStream} {cursor : Nat} {on : Bool} {q : Parser} {e : Expr}
    (htakes : Takes peekOperator? s none s)
    (h : climbFrom b left least none ⟨s, cursor, on⟩ = .ok e q) :
    ∃ first, Traces (Spans false · .behind) left.parameters e.parameters
      (climbFrom b left least none) ⟨s, cursor, on⟩ e q first := by
  cases on with
  | false =>
      rw [climbFrom_of_off] at h
      cases h
      refine ⟨[], asksFor_nothing rfl, fun _ _ => id, fun i marks s' hi hspans _ => ?_⟩
      have hoff : i = false := eq_false_of_ne_true fun htrue => nomatch hi htrue
      subst hoff
      exact ⟨climbFrom_of_off left least s cursor, marks, rfl, hspans⟩
  | true =>
      rw [climbFrom_of_on] at h
      obtain ⟨found, r, hsuffix, h⟩ := bind_eq_ok.mp h
      cases found with
      | none =>
          obtain ⟨rfl, -⟩ := suffix?_eq_none hsuffix
          cases h
          refine ⟨[], asksFor_nothing rfl, fun _ _ => id, fun i marks s' _ hspans _ => ?_⟩
          refine ⟨?_, marks, rfl, hspans⟩
          cases i with
          | false => exact climbFrom_of_off left least s cursor
          | true => exact climbFrom_of_suffix? hsuffix least
      | some e' =>
          obtain ⟨form, hform, he', hr⟩ := exists_form_of_suffix? hsuffix
          have hplaces : e'.parameters = left.parameters := he' ▸ form.parameters_apply left
          obtain ⟨first, htraces⟩ := hclimb e' least h
          rw [hr, hplaces] at htraces
          refine ⟨first, htraces.asks, fun more s' hmore => .form hform (htraces.derives hmore),
            fun i marks s' hi hspans hends => ?_⟩
          cases hspans with
          | nothing => exact absurd hform.at (hends.2 rfl)
          | operator htakes' _ => cases (htakes 0 true).symm.trans (htakes' 0 true)
          | form hform' hspans =>
              have htaken := hform'.takes_suffix? left cursor true
              cases hsuffix.symm.trans htaken
              rw [climbFrom_of_suffix? htaken]
              exact htraces.only hi hspans hends

theorem traced_climbWithin_succ
    (hoperand : Traced (Spans false · .operand) [] Expr.parameters (operandWithin b))
    (hclimb : ∀ left least,
      Traced (Spans false · .behind) left.parameters Expr.parameters (climbWithin b left least))
    (htighten : ∀ op right,
      Traced (Spans false · .behind) right.parameters Expr.parameters (tightenWithin b op right))
    (left : Expr) (least : Nat) :
    Traced (Spans false · .behind) left.parameters Expr.parameters
      (climbWithin (b + 1) left least) := by
  rintro ⟨s, cursor, on⟩ e q h
  rw [climbWithin_succ] at h ⊢
  obtain ⟨found, r, hop, h⟩ := bind_eq_ok.mp h
  obtain ⟨rfl, -⟩ := peekOperator?_eq_ok hop
  have htakes : Takes peekOperator? s found s := takes_peekOperator? hop
  have hpeek := fun i => bind_apply_ok (htakes cursor i) (climbFrom b left least)
  cases found with
  | none =>
      exact (traces_climbFrom_none hclimb left least htakes h).imp fun first htraces =>
        htraces.from hpeek (fun _ _ => id) fun _ _ _ _ _ => id
  | some found =>
      obtain ⟨op, behind⟩ := found
      by_cases hloose : op.precedence < least
      · rw [climbFrom_of_loose hloose] at h hpeek
        exact (traced_pure rfl h).imp fun first htraces =>
          htraces.from hpeek (fun _ _ => id) fun _ _ _ _ _ => id
      · have hrest := (hoperand.within left.parameters).bind (keepsSuffixes_withinBudget b).2.1
          fun operand => ((htighten op operand).within left.parameters).bind
            ((keepsSuffixes_withinBudget b).2.2.2.2 op operand)
            fun right => hclimb (.binary op left right) least
        rw [List.append_nil] at hrest
        rw [climbFrom_of_tight hloose] at h
        exact (hrest h).imp fun first htraces => htraces.from
          (fun i => (hpeek i).trans (climbFrom_of_tight hloose _))
          (fun _ _ => .operator htakes) fun _ _ _ _ hends => spans_of_operator htakes hends.1

theorem traced_tightenWithin_succ
    (hclimb : ∀ left least,
      Traced (Spans false · .behind) left.parameters Expr.parameters (climbWithin b left least))
    (htighten : ∀ op right,
      Traced (Spans false · .behind) right.parameters Expr.parameters (tightenWithin b op right))
    (op : BinaryOp) (right : Expr) :
    Traced (Spans false · .behind) right.parameters Expr.parameters
      (tightenWithin (b + 1) op right) := by
  rintro ⟨s, cursor, on⟩ e q h
  rw [tightenWithin_succ] at h ⊢
  obtain ⟨found, r, hop, h⟩ := bind_eq_ok.mp h
  obtain ⟨rfl, -⟩ := peekOperator?_eq_ok hop
  have hpeek := fun i => bind_apply_ok (takes_peekOperator? hop cursor i) (tightenFrom b op right)
  have hfrom : Traced (Spans false · .behind) right.parameters Expr.parameters
      (tightenFrom b op right found) := by
    cases found with
    | none => exact traced_pure rfl
    | some found =>
        unfold tightenFrom
        dsimp only
        split
        · exact traced_pure rfl
        · exact (hclimb right found.1.precedence).bind
            ((keepsSuffixes_withinBudget b).2.2.2.1 right found.1.precedence)
            fun right => htighten op right
  exact (hfrom h).imp fun first htraces =>
    htraces.from hpeek (fun _ _ => id) fun _ _ _ _ _ => id

theorem traced_withinBudget (b : Nat) :
    Traced (Spans false · .operand) [] Expr.parameters (expressionWithin b) ∧
      Traced (Spans false · .operand) [] Expr.parameters (operandWithin b) ∧
      TracedWhole .arguments (fun _ s => s.At [")"]) Expr.parametersAll (argumentsWithin b) ∧
      (∀ left least,
        Traced (Spans false · .behind) left.parameters Expr.parameters
          (climbWithin b left least)) ∧
      ∀ op right,
        Traced (Spans false · .behind) right.parameters Expr.parameters
          (tightenWithin b op right) := by
  induction b with
  | zero =>
      exact ⟨traced_throw _, traced_throw _, tracedWhole_throw _, fun _ _ => traced_throw _,
        fun _ _ => traced_throw _⟩
  | succ b ih =>
      obtain ⟨hexpression, hoperand, harguments, hclimb, htighten⟩ := ih
      exact ⟨hoperand.bind (keepsSuffixes_withinBudget b).2.1 fun left => hclimb left 0,
        traced_operandWithin_succ hexpression hoperand harguments,
        tracedWhole_argumentsWithin_succ hexpression.whole harguments,
        traced_climbWithin_succ hoperand hclimb htighten,
        traced_tightenWithin_succ hclimb htighten⟩

end Loops

/-- An expression takes all of a derivation of the tokens that are ahead, and the only one. -/
theorem tracedWhole_expression : TracedWhole .operand StopsAt Expr.parameters expression := by
  intro p e q h
  obtain ⟨budget, _, hbudget, h⟩ := bind_eq_ok.mp h
  cases hbudget
  obtain ⟨marks, htraces⟩ := (traced_withinBudget _).1.whole h
  exact ⟨marks, htraces.asks, htraces.derives, htraces.only⟩

/-- An operand starts each derivation of the tokens that are ahead. -/
theorem traced_operand : Traced (Spans false · .operand) [] Expr.parameters operand := by
  intro p e q h
  obtain ⟨budget, _, hbudget, h⟩ := bind_eq_ok.mp h
  cases hbudget
  obtain ⟨first, htraces⟩ := (traced_withinBudget _).2.1 h
  exact ⟨first, htraces.asks, htraces.derives, htraces.only⟩

end Parse

end OnePassSql

import OnePassSql.Proofs.Faults.Expression
import OnePassSql.Proofs.Parser.Equations
import OnePassSql.Proofs.Rounds

/-!
The loops of the expressions go round: every operand takes a token, every form that stands behind an
operand takes one, and so does every round of climbing. An operator that is looked at and left where
it is takes nothing, and so the round that meets it is the last one of its loop.
-/

namespace OnePassSql

open Step

/-- How many tokens are left. -/
abbrev Parser.tokens (p : Parser) : Nat := p.ahead.length

namespace Parse

variable {α : Type} {b : Nat}

/-! ## What steps take -/

theorem spends_of_movesOn {step : Parse α} (h : MovesOn step) :
    Spends Parser.tokens (fun _ => 0) step :=
  fun _ _ _ hs => h.length_le hs

theorem spends_acceptOne? (options : List (String × α)) :
    Spends Parser.tokens (fun found => found.isSome.toNat) (acceptOne? options) := by
  intro p found q h
  cases found with
  | none => exact (movesOn_acceptOne? options).length_le h
  | some a => exact length_lt_of_acceptOne? h

theorem spends_accept (word : String) : Spends Parser.tokens Bool.toNat (accept word) :=
  (spends_acceptOne? _).bind fun _ => spends_pure (Nat.sub_self _)

theorem spends_expectToken : Spends Parser.tokens (fun _ => 1) expectToken :=
  fun _ _ _ h => length_lt_of_expectToken h

theorem spends_expectName : Spends Parser.tokens (fun _ => 1) expectName :=
  spends_expectToken.bind fun _ => spends_pure rfl

theorem spends_suffix? (operand : Expr) :
    Spends Parser.tokens (fun found => found.isSome.toNat) (suffix? operand) := by
  intro p found q h
  cases found with
  | none => exact (movesOn_suffix? operand).length_le h
  | some e => exact length_lt_of_suffix? h

theorem spends_operandWithin (b : Nat) : Spends Parser.tokens (fun _ => 1) (operandWithin b) := by
  cases b with
  | zero => exact spends_throw _
  | succ b =>
      obtain ⟨hexpression, hoperand, harguments, -⟩ := movesOn_withinBudget b
      refine (spends_of_movesOn movesOn_position).bind fun start => ?_
      refine spends_expectToken.bind fun t => ?_
      exact spends_of_movesOn (movesOn_operandFrom hexpression hoperand harguments start t)

theorem spends_expressionWithin (b : Nat) :
    Spends Parser.tokens (fun _ => 1) (expressionWithin b) := by
  cases b with
  | zero => exact spends_throw _
  | succ b =>
      refine (spends_operandWithin b).bind fun left => ?_
      exact spends_of_movesOn ((movesOn_withinBudget b).2.2.2.1 left 0)

theorem spends_expression : Spends Parser.tokens (fun _ => 1) expression :=
  (spends_get fun _ => rfl).bind fun _ => spends_expressionWithin _

/-! ## Budgets that do not run out -/

section

variable {step : Parse α} {E : TokenStream → Fault → Prop} {P : TokenStream → α → Prop}

theorem spends_of_ends (h : ∀ s, Ends (Parser.Within s) (E s) (P s) step) :
    Spends Parser.tokens (fun _ => 0) step :=
  fun p _ _ hs => length_le_of_ends (h p.ahead) hs

/-- A step that only faults with what can be wrong with the stream has no budget that runs out. -/
theorem lasts_of_ends (hE : ∀ s, ¬E s .exhausted)
    (h : ∀ s, Ends (Parser.Within s) (E s) (P s) step) : Lasts step :=
  fun p _ => (h p.ahead p (.refl p.ahead)).lasts (hE p.ahead)

theorem lasts_of_readsIn (h : ∀ s, ReadsIn s (P s) step) : Lasts step :=
  lasts_of_ends (fun _ => nofun) h

end

theorem lasts_accept (word : String) : Lasts (accept word) :=
  lasts_of_readsIn fun _ => readsIn_accept word

theorem lasts_peekOperator? : Lasts peekOperator? := lasts_of_readsIn fun _ => readsIn_peekOperator?

theorem lasts_operand : Lasts operand := lasts_of_readsIn fun _ => readsIn_operand

theorem lasts_expression : Lasts expression := lasts_of_readsIn fun _ => readsIn_expression

theorem lasts_suffix? (operand : Expr) : Lasts (suffix? operand) := by
  have hlist : Lasts membershipList := lasts_of_readsIn fun _ => readsIn_membershipList
  have hstart : Lasts (acceptOne? [("NOT", Suffix.negated), ("NOTNULL", .notNull),
      ("ISNULL", .isNull), ("IN", .membership)]) :=
    lasts_of_readsIn fun _ => readsIn_acceptOne? _
  refine hstart.bind fun found => ?_
  cases found with
  | none => exact lasts_pure _
  | some form =>
      cases form with
      | notNull => exact lasts_pure _
      | isNull => exact lasts_pure _
      | membership => exact hlist.bind fun _ => lasts_pure _
      | negated =>
          refine Lasts.bind (lasts_of_readsIn fun _ => readsIn_expectOne _) fun isNull => ?_
          cases isNull with
          | true => exact lasts_pure _
          | false => exact hlist.bind fun _ => lasts_pure _

theorem lastsAt_climb {p : Parser}
    (hclimb : ∀ q : Parser, q.ahead.length < p.ahead.length →
      ∀ left least, LastsAt (climb left least) q)
    (htighten : ∀ q : Parser, q.ahead.length < p.ahead.length →
      ∀ op right, LastsAt (tighten op right) q)
    (left : Expr) (least : Nat) : LastsAt (climb left least) p := by
  rw [LastsAt, EndsAt, climb_apply]
  refine endsAt_bind (lasts_peekOperator? p trivial) fun found q hop _ _ => ?_
  obtain ⟨rfl, hbehind⟩ := peekOperator?_eq_ok hop
  cases found with
  | some found =>
      obtain ⟨op, behind⟩ := found
      dsimp only
      split
      · exact endsAt_pure trivial trivial
      · have hlt := (hbehind op behind rfl).2
        refine endsAt_bind (P := fun _ => True) (x := resume behind) ⟨trivial, trivial⟩
          fun _ q₁ h₁ _ _ => ?_
        cases h₁
        refine endsAt_bind (lasts_operand _ trivial) fun e q₂ h₂ _ _ => ?_
        have hle₂ := (movesOn_withinBudget _).2.1.length_le h₂
        dsimp only at hle₂
        refine endsAt_bind (htighten q₂ (by omega) op e) fun right q₃ h₃ _ _ => ?_
        have hle₃ := ((movesOn_withinBudget _).2.2.2.2 op e).length_le h₃
        exact hclimb q₃ (by omega) _ least
  | none =>
      refine endsAt_bind (lasts_get q trivial) fun state q₁ h₁ _ _ => ?_
      cases h₁
      split
      · refine endsAt_bind (lasts_suffix? left q trivial) fun found q₂ h₂ _ _ => ?_
        cases found with
        | none => exact endsAt_pure trivial trivial
        | some e => exact hclimb q₂ (length_lt_of_suffix? h₂) e least
      · exact endsAt_pure trivial trivial

theorem lastsAt_tighten {p : Parser} (hclimb : ∀ left least, LastsAt (climb left least) p)
    (htighten : ∀ q : Parser, q.ahead.length < p.ahead.length →
      ∀ op right, LastsAt (tighten op right) q)
    (op : BinaryOp) (right : Expr) : LastsAt (tighten op right) p := by
  rw [LastsAt, EndsAt, tighten_apply]
  refine endsAt_bind (lasts_peekOperator? p trivial) fun found q hop _ _ => ?_
  obtain ⟨rfl, -⟩ := peekOperator?_eq_ok hop
  cases found with
  | none => exact endsAt_pure trivial trivial
  | some found =>
      obtain ⟨tighter, behind⟩ := found
      dsimp only
      split
      · exact endsAt_pure trivial trivial
      · refine endsAt_bind (hclimb right _) fun right' q₂ h₂ _ _ => ?_
        exact htighten q₂ (length_lt_of_climbWithin hop (Nat.le_refl _) h₂) op right'

/-- Whatever they extend, climbing and tightening end. -/
theorem lasts_climb_and_tighten :
    (∀ left least, Lasts (climb left least)) ∧ ∀ op right, Lasts (tighten op right) := by
  have hboth : ∀ n, ∀ p : Parser, p.ahead.length < n →
      (∀ left least, LastsAt (climb left least) p) ∧ ∀ op right, LastsAt (tighten op right) p := by
    -- climbing takes a token before it calls either; tightening climbs from where it is, so at one
    -- length it comes second
    intro n
    induction n with
    | zero => exact fun p h => absurd h (Nat.not_lt_zero _)
    | succ n ih =>
        intro p hp
        have hclimb := lastsAt_climb (p := p) (fun q hq => (ih q (by omega)).1)
          fun q hq => (ih q (by omega)).2
        exact ⟨hclimb, lastsAt_tighten hclimb fun q hq => (ih q (by omega)).2⟩
  exact ⟨fun left least p _ => (hboth _ p (Nat.lt_succ_self _)).1 left least,
    fun op right p _ => (hboth _ p (Nat.lt_succ_self _)).2 op right⟩

/-! ## Forms with commas between them -/

/-- Reads a form, and asks for another one behind a comma. -/
def itemRound (form : Parse α) (items : List α) : Parse (Turn (List α) (List α)) := do
  let a ← form
  if ← accept "," then return .again (items ++ [a]) else return .last (items ++ [a])

theorem spends_itemRound {form : Parse α} (h : Spends Parser.tokens (fun _ => 1) form)
    (items : List α) : Spends Parser.tokens (fun _ => 1) (itemRound form items) := by
  refine h.bind fun a => spends_of_movesOn ((movesOn_accept ",").bind fun more => ?_)
  cases more <;> exact respects_pure _

theorem lasts_itemRound {form : Parse α} (h : Lasts form) (items : List α) :
    Lasts (itemRound form items) := by
  refine h.bind fun a => (lasts_accept ",").bind fun more => ?_
  cases more <;> exact lasts_pure _

/-- Whether a loop reads what follows the comma, or asks for another round that reads it. -/
theorem behindComma_eq_goOn (loop : Parse (List α)) (items : List α) (a : α) (more : Bool) :
    (if more then do
        let rest ← loop
        return a :: rest
      else return [a] : Parse (List α)) >>= (fun read => pure (items ++ read))
      = (if more then return .again (items ++ [a]) else return .last (items ++ [a]) :
          Parse (Turn (List α) (List α))) >>= goOn fun items => (items ++ ·) <$> loop := by
  cases more with
  | false => rfl
  | true =>
      simp only [if_true, bind_assoc, pure_bind, goOn, map_eq_pure_bind, List.append_assoc,
        List.singleton_append]

/-- A loop that reads a form, and behind a comma more of them, goes round. -/
theorem goesRound_items {form : Parse α} {loop : Nat → Parse (List α)} {factor extra : Nat}
    (hfactor : 0 < factor) (hextra : 0 < extra) (hspends : Spends Parser.tokens (fun _ => 1) form)
    (hlasts : Lasts form)
    (hsucc : ∀ budget (p : Parser), factor * p.ahead.length + extra ≤ budget + 1 →
      loop (budget + 1) p = (do
        let a ← form
        if ← accept "," then
          let rest ← loop budget
          return a :: rest
        else return [a] : Parse (List α)) p) :
    GoesRound Parser.tokens (itemRound form) (fun budget items => (items ++ ·) <$> loop budget)
      factor extra := by
  refine goesRound_of_succ hfactor hextra
    (fun items => (spends_itemRound hspends items).mono Turn.cost_le_one) (lasts_itemRound hlasts)
    fun budget items p hbudget => ?_
  rw [map_eq_pure_bind, bind_congr (hsucc budget p hbudget) fun _ _ _ => rfl, itemRound,
    bind_assoc, bind_assoc]
  refine bind_congr rfl fun a q _ => ?_
  rw [bind_assoc, bind_assoc]
  exact bind_congr rfl fun more r _ => congrFun (behindComma_eq_goOn (loop budget) items a more) r

theorem goesRound_separated {form : Parse α} {P : TokenStream → α → Prop}
    (hspends : Spends Parser.tokens (fun _ => 1) form) (h : ∀ s, ReadsIn s (P s) form) :
    GoesRound Parser.tokens (itemRound form)
      (fun budget items => (items ++ ·) <$> separated form budget) 1 1 :=
  goesRound_items Nat.one_pos Nat.one_pos hspends (lasts_of_readsIn h) fun _ _ _ => rfl

theorem goesRound_arguments :
    GoesRound Parser.tokens (itemRound expression)
      (fun budget items => (items ++ ·) <$> argumentsWithin budget) 4 3 := by
  refine goesRound_items (by decide) (by decide) spends_expression lasts_expression
    fun budget p hbudget => ?_
  exact bind_congr (expressionWithin_eq (by omega)) fun _ _ _ => rfl

/-! ## Climbing -/

/-- A round of climbing: an operator that binds tightly enough is taken with its right operand, or a
form that stands behind the operand. -/
def climbRound (least : Nat) (left : Expr) : Parse (Turn Expr Expr) := do
  match ← peekOperator? with
  | some (op, behind) =>
    if op.precedence < least then return .last left
    else
      resume behind
      let operand ← operand
      let right ← tighten op operand
      return .again (.binary op left right)
  | none =>
    if (← get).suffixes then
      match ← suffix? left with
      | some e => return .again e
      | none => return .last left
    else return .last left

/-- A round of extending a right operand: climbing on from an operator that binds more tightly. -/
def tightenRound (op : BinaryOp) (right : Expr) : Parse (Turn Expr Expr) := do
  match ← peekOperator? with
  | some (tighter, _) =>
    if tighter.precedence ≤ op.precedence then return .last right
    else
      let right ← climb right tighter.precedence
      return .again right
  | none => return .last right

theorem spends_climbRound (least : Nat) (left : Expr) :
    Spends Parser.tokens Turn.cost (climbRound least left) := by
  intro p turn r h
  obtain ⟨found, q, hop, hround⟩ := bind_eq_ok.mp h
  obtain ⟨rfl, hbehind⟩ := peekOperator?_eq_ok hop
  cases found with
  | some found =>
      obtain ⟨op, behind⟩ := found
      dsimp only at hround
      split at hround
      · cases hround
        exact Nat.le_refl _
      · have hlt := (hbehind op behind rfl).2
        obtain ⟨_, q₁, hresume, hround⟩ := bind_eq_ok.mp hround
        cases hresume
        obtain ⟨e, q₂, hoperand, hround⟩ := bind_eq_ok.mp hround
        obtain ⟨right, q₃, htighten, hround⟩ := bind_eq_ok.mp hround
        cases hround
        have hle₂ := (movesOn_withinBudget _).2.1.length_le hoperand
        have hle₃ := ((movesOn_withinBudget _).2.2.2.2 op e).length_le htighten
        exact Nat.lt_of_le_of_lt (Nat.le_trans hle₃ hle₂) hlt
  | none =>
      refine (spends_get (fun _ => rfl)).bind (fun state => ?_) q turn r hround
      split
      · refine (spends_suffix? left).bind fun found => ?_
        cases found <;> exact spends_pure rfl
      · exact spends_pure rfl

theorem spends_tightenRound (op : BinaryOp) (right : Expr) :
    Spends Parser.tokens Turn.cost (tightenRound op right) := by
  intro p turn r h
  obtain ⟨found, q, hop, hround⟩ := bind_eq_ok.mp h
  obtain ⟨rfl, -⟩ := peekOperator?_eq_ok hop
  cases found with
  | none =>
      cases hround
      exact Nat.le_refl _
  | some found =>
      obtain ⟨tighter, behind⟩ := found
      dsimp only at hround
      split at hround
      · cases hround
        exact Nat.le_refl _
      · -- the operator was only looked at; climbing on takes it, for it binds tightly enough
        obtain ⟨right', q₁, hclimb, hround⟩ := bind_eq_ok.mp hround
        cases hround
        exact length_lt_of_climbWithin hop (Nat.le_refl _) hclimb

theorem lasts_climbRound (least : Nat) (left : Expr) : Lasts (climbRound least left) := by
  refine lasts_peekOperator?.bind fun found => ?_
  cases found with
  | some found =>
      dsimp only
      split
      · exact lasts_pure _
      · exact Lasts.bind (ends_modify fun _ _ => trivial) fun _ => lasts_operand.bind fun e =>
          (lasts_climb_and_tighten.2 _ e).bind fun _ => lasts_pure _
  | none =>
      refine lasts_get.bind fun state => ?_
      split
      · refine (lasts_suffix? left).bind fun found => ?_
        cases found <;> exact lasts_pure _
      · exact lasts_pure _

theorem lasts_tightenRound (op : BinaryOp) (right : Expr) : Lasts (tightenRound op right) := by
  refine lasts_peekOperator?.bind fun found => ?_
  cases found with
  | none => exact lasts_pure _
  | some found =>
      dsimp only
      split
      · exact lasts_pure _
      · exact (lasts_climb_and_tighten.1 right _).bind fun _ => lasts_pure _

theorem climbWithin_eq_round {budget : Nat} {p : Parser} (h : 4 * p.ahead.length + 1 ≤ budget + 1)
    (least : Nat) (left : Expr) :
    climbWithin (budget + 1) left least p
      = (climbRound least left >>= goOn (climbWithin budget · least)) p := by
  rw [climbWithin_succ, climbRound, bind_assoc]
  refine bind_congr rfl fun found q hop => ?_
  obtain ⟨rfl, hbehind⟩ := peekOperator?_eq_ok hop
  cases found with
  | some found =>
      obtain ⟨op, behind⟩ := found
      have hlt := (hbehind op behind rfl).2
      unfold climbFrom
      dsimp only
      split
      · rfl
      · rw [bind_assoc]
        refine bind_congr rfl fun _ q₁ h₁ => ?_
        cases h₁
        rw [bind_assoc]
        refine bind_congr (operandWithin_eq (by dsimp only; omega)) fun e q₂ h₂ => ?_
        have hle := (movesOn_withinBudget _).2.1.length_le h₂
        dsimp only at hle
        rw [bind_assoc]
        exact bind_congr (tightenWithin_eq (by omega) op e) fun _ _ _ => rfl
  | none =>
      unfold climbFrom
      dsimp only
      rw [bind_assoc]
      refine bind_congr rfl fun state q₁ _ => ?_
      split
      · rw [bind_assoc]
        refine bind_congr rfl fun found q₂ _ => ?_
        cases found <;> rfl
      · rfl

theorem tightenWithin_eq_round {budget : Nat} {p : Parser} (h : 4 * p.ahead.length + 2 ≤ budget + 1)
    (op : BinaryOp) (right : Expr) :
    tightenWithin (budget + 1) op right p
      = (tightenRound op right >>= goOn (tightenWithin budget op)) p := by
  rw [tightenWithin_succ, tightenRound, bind_assoc]
  refine bind_congr rfl fun found q hop => ?_
  obtain ⟨rfl, -⟩ := peekOperator?_eq_ok hop
  cases found with
  | none => rfl
  | some found =>
      unfold tightenFrom
      dsimp only
      split
      · rfl
      · rw [bind_assoc]
        exact bind_congr (climbWithin_eq (by omega) right _) fun _ _ _ => rfl

theorem goesRound_climb (least : Nat) :
    GoesRound Parser.tokens (climbRound least) (climbWithin · · least) 4 1 :=
  goesRound_of_succ (by decide) (by decide) (spends_climbRound least) (lasts_climbRound least)
    fun _ left _ hbudget => climbWithin_eq_round hbudget least left

theorem goesRound_tighten (op : BinaryOp) :
    GoesRound Parser.tokens (tightenRound op) (tightenWithin · op) 4 2 :=
  goesRound_of_succ (by decide) (by decide) (spends_tightenRound op) (lasts_tightenRound op)
    fun _ right _ hbudget => tightenWithin_eq_round hbudget op right

/-! ## The list of a membership test -/

/-- Takes a token of the list, and asks for another one until the parenthesis that closes the
outermost one open. -/
def listRound : Nat × List String → Parse (Turn (Nat × List String) (List String))
  | (depth, texts) => do
    let t ← expectToken
    match TokenStream.depthBehind? depth t with
    | none => return .last texts
    | some depth => return .again (depth, texts ++ [t.text])

/-- The texts of a list with `depth` parentheses open, behind those that have been read. -/
def listFrom : Nat × List String → Parse (List String)
  | (depth, texts) => do
    let here := (← get).ahead
    match here.enclosed? depth with
    | some (tokens, rest) =>
      resume rest
      return texts ++ tokens.map Token.text
    | none =>
      resume here.ending
      let t ← expectToken
      return [t.text]

theorem membershipList_eq_listFrom :
    membershipList = (do
      expect "("
      let texts ← listFrom (1, [])
      return " ".intercalate texts : Parse String) := by
  refine congrArg (expect "(" >>= ·) (funext fun _ => ?_)
  funext p
  rw [listFrom, bind_assoc]
  refine bind_congr rfl fun here q _ => ?_
  dsimp only
  cases here.ahead.enclosed? 1 with
  | some found => rfl
  | none =>
      rw [bind_assoc]
      refine bind_congr rfl fun _ r _ => ?_
      rw [bind_assoc]
      exact bind_congr rfl fun t _ _ => by rw [pure_bind, String.intercalate_singleton]

theorem spends_listRound (list : Nat × List String) :
    Spends Parser.tokens (fun _ => 1) (listRound list) := by
  refine spends_expectToken.bind fun t => ?_
  split <;> exact spends_pure rfl

theorem lasts_listRound (list : Nat × List String) : Lasts (listRound list) := by
  refine Lasts.bind (lasts_of_readsIn fun _ => readsIn_expectToken) fun t => ?_
  split <;> exact lasts_pure _

theorem listFrom_of_token {p : Parser} {t : Token} {rest : TokenStream}
    (h : p.ahead = .token t rest) (depth : Nat) (texts : List String) :
    listFrom (depth, texts) p = match TokenStream.depthBehind? depth t with
      | none => .ok texts { p with ahead := rest }
      | some depth => listFrom (depth, texts ++ [t.text]) { p with ahead := rest } := by
  rw [listFrom, bind_apply_ok (get_apply p), h, TokenStream.enclosed?_token]
  cases TokenStream.depthBehind? depth t with
  | none =>
      dsimp only
      rw [List.map_nil, List.append_nil]
      rfl
  | some depth' =>
      dsimp only
      rw [listFrom, bind_apply_ok (get_apply _)]
      dsimp only
      cases rest.enclosed? depth' with
      | none => rfl
      | some found =>
          simp only [Option.map_some, List.map_cons, List.append_assoc, List.singleton_append]
          rfl

theorem listFrom_of_ended {p q : Parser} {e : Fault} (hended : p.ahead.ending = p.ahead)
    (h : expectToken p = .error e q) (depth : Nat) (texts : List String) :
    listFrom (depth, texts) p = .error e q := by
  have hnone : p.ahead.enclosed? depth = none := by
    cases hahead : p.ahead with
    | token t rest => exact absurd (hended.trans hahead) (TokenStream.ending_ne_token _ t rest)
    | done n => rfl
    | fault ch n => rfl
  rw [listFrom, bind_apply_ok (get_apply p), hnone, hended]
  exact bind_eq_error.mpr (.inr ⟨⟨⟩, p, rfl, bind_eq_error.mpr (.inl h)⟩)

theorem goesRound_list :
    GoesRound Parser.tokens listRound (fun _ list => listFrom list) 1 1 := by
  refine goesRound_of_succ Nat.one_pos Nat.one_pos
    (fun list => (spends_listRound list).mono Turn.cost_le_one) lasts_listRound
    fun _ list p _ => ?_
  obtain ⟨depth, texts⟩ := list
  rw [listRound, bind_assoc]
  cases hahead : p.ahead with
  | token t rest =>
      rw [listFrom_of_token hahead, bind_apply_ok (expectToken_of_token hahead)]
      cases TokenStream.depthBehind? depth t <;> rfl
  | done n =>
      have hrefused := expectToken_of_done hahead
      rw [listFrom_of_ended (by rw [hahead]; rfl) hrefused, bind_eq_error.mpr (.inl hrefused)]
  | fault ch n =>
      have hrefused := expectToken_of_fault hahead
      rw [listFrom_of_ended (by rw [hahead]; rfl) hrefused, bind_eq_error.mpr (.inl hrefused)]

end Parse

end OnePassSql

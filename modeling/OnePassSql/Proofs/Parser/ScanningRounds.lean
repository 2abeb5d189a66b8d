import OnePassSql.Proofs.Parser.Scanning
import OnePassSql.Proofs.Statement.Rounds

/-!
The loops on a lexer. A round of climbing takes an operator to see what it is, and goes back to the
checkpoint before it if the round is the last one; the other loops push back the token that ends
them. On the tokens that the lexer is going to hand out the rounds are those of the loops on a
stream, so of those tokens too a round that asks for another one leaves less.
-/

namespace OnePassSql

open Step

/-- How many tokens the lexer is going to hand out, one that comes again included. -/
abbrev Scanner.tokens (s : Scanner) : Nat := s.lexer.stream.length

namespace Scan

open Parse (plainWords)

variable {α β : Type}

/-! ## Steps and loops -/

section

variable {x : Scan α} {y : Parse α} {s t : Scanner}

theorem performs_rounds {round : β → Scan (Turn β α)} {round' : β → Parse (Turn β α)}
    (h : ∀ b, Performs (round b) (round' b)) (budget : Nat) (b : β) :
    Performs (rounds round budget b) (rounds round' budget b) := by
  induction budget generalizing b with
  | zero => exact performs_throw _
  | succ budget ih =>
      refine (h b).bind fun turn => ?_
      cases turn with
      | last a => exact performs_pure a
      | again next => exact ih next

end

/-! ## Ending in a text -/

/-- Wherever in the text it starts, the step ends in one way on all budgets from `limit` on, and in
it no budget runs out. -/
def EndsAsIn (text : Scanner → Prop) (limit : Nat) (step : Nat → Scan α) : Prop :=
  ∀ s, text s → ∃ r, (∀ p, r ≠ .error .exhausted p) ∧
    ∀ budget, limit ≤ budget → EndsAs (step budget s) r

/-- So it is with the loop, and it ends as its rounds do, of which those that ask for another one
leave fewer tokens to be handed out. -/
structure LoopEndsAsIn (text : Scanner → Prop) (limit : Nat) (round : β → Scan (Turn β α))
    (loop : Nat → β → Scan α) : Prop where
  progress (b next : β) (s t : Scanner) : text s → round b s = .ok (.again next) t →
    t.tokens < s.tokens
  ends (b : β) (s : Scanner) : text s → ∃ r, (∀ p, r ≠ .error .exhausted p) ∧
    EndsAs (rounds round (s.tokens + 1) b s) r ∧
    ∀ budget, limit ≤ budget → EndsAs (loop budget b s) r

/-- Also the last round of the loop leaves fewer tokens. -/
structure LoopTakesAsIn (text : Scanner → Prop) (limit : Nat) (round : β → Scan (Turn β α))
    (loop : Nat → β → Scan α) : Prop extends LoopEndsAsIn text limit round loop where
  takes (b : β) (turn : Turn β α) (s t : Scanner) : text s → round b s = .ok turn t →
    t.tokens < s.tokens

section

variable {text : Scanner → Prop} {limit n factor extra : Nat}

theorem endsAsIn_of_performs {x : Nat → Scan α} {y : Nat → Parse α} {text' : Parser → Prop}
    (h : ∀ budget, Performs (x budget) (y budget)) (hends : EndsIn text' limit y)
    (htext : ∀ s, text s → s.Settled ∧ text' s.parser) : EndsAsIn text limit x := by
  intro s hs
  obtain ⟨hsettled, hparser⟩ := htext s hs
  obtain ⟨r, hlasts, hruns⟩ := hends s.parser hparser
  exact ⟨r, hlasts, fun budget hbudget => hruns budget hbudget ▸ h budget hsettled⟩

variable {round : β → Scan (Turn β α)} {round' : β → Parse (Turn β α)}
  {loop : Nat → β → Scan α} {loop' : Nat → β → Parse α} {text' : Parser → Prop}

theorem loopEndsAsIn_of_performs (hround : ∀ b, Performs (round b) (round' b))
    (hloop : ∀ budget b, Performs (loop budget b) (loop' budget b))
    (h : LoopEndsIn text' Parser.tokens limit round' loop')
    (htext : ∀ s, text s → s.Settled ∧ text' s.parser) : LoopEndsAsIn text limit round loop where
  progress b next s t hs hx := by
    obtain ⟨hsettled, hparser⟩ := htext s hs
    exact h.progress b next s.parser t.parser hparser ((hround b).eq_ok hsettled hx).1
  ends b s hs := by
    obtain ⟨hsettled, hparser⟩ := htext s hs
    obtain ⟨r, hlasts, hrounds, hruns⟩ := h.ends b s.parser hparser
    exact ⟨r, hlasts, hrounds ▸ performs_rounds hround _ b hsettled,
      fun budget hbudget => hruns budget hbudget ▸ hloop budget b hsettled⟩

theorem loopTakesAsIn_of_performs (hround : ∀ b, Performs (round b) (round' b))
    (hloop : ∀ budget b, Performs (loop budget b) (loop' budget b))
    (h : LoopTakesIn text' Parser.tokens limit round' loop')
    (htext : ∀ s, text s → s.Settled ∧ text' s.parser) : LoopTakesAsIn text limit round loop where
  toLoopEndsAsIn := loopEndsAsIn_of_performs hround hloop h.toLoopEndsIn htext
  takes b turn s t hs hx := by
    obtain ⟨hsettled, hparser⟩ := htext s hs
    exact h.takes b turn s.parser t.parser hparser ((hround b).eq_ok hsettled hx).1

end

/-! ## Expressions -/

/-- Extends an operand by what binds at least as tightly as `least`. -/
def climb (left : Expr) (least : Nat) : Scan Expr := do
  climbWithin (← budget) left least

/-- Extends a right operand by what binds more tightly than `op`. -/
def tighten (op : BinaryOp) (right : Expr) : Scan Expr := do
  tightenWithin (← budget) op right

theorem performs_climb (left : Expr) (least : Nat) :
    Performs (climb left least) (Parse.climb left least) :=
  performs_budget.bind fun budget => (performsWithin budget).climb left least

theorem performs_tighten (op : BinaryOp) (right : Expr) :
    Performs (tighten op right) (Parse.tighten op right) :=
  performs_budget.bind fun budget => (performsWithin budget).tighten op right

/-- A round of climbing. An operator that binds less tightly than `least` is put back. -/
def climbRound (least : Nat) (left : Expr) : Scan (Turn Expr Expr) := do
  match ← operator? with
  | some (op, mark) =>
    if op.precedence < least then
      restore mark
      return .last left
    else
      let operand ← operand
      let right ← tighten op operand
      return .again (.binary op left right)
  | none =>
    if (← get).suffixes then
      match ← suffix? left with
      | some e => return .again e
      | none => return .last left
    else return .last left

/-- A round of extending a right operand. The operator is put back in any case, so what a round
takes is taken by climbing on. -/
def tightenRound (op : BinaryOp) (right : Expr) : Scan (Turn Expr Expr) := do
  match ← operator? with
  | some (tighter, mark) =>
    restore mark
    if tighter.precedence ≤ op.precedence then return .last right
    else
      let right ← climb right tighter.precedence
      return .again right
  | none => return .last right

/-- Takes a token of a list in parentheses. -/
def listRound : Nat × List String → Scan (Turn (Nat × List String) (List String))
  | (depth, texts) => do
    let t ← expectToken
    match TokenStream.depthBehind? depth t with
    | none => return .last texts
    | some depth => return .again (depth, texts ++ [t.text])

theorem performs_climbRound (least : Nat) (left : Expr) :
    Performs (climbRound least left) (Parse.climbRound least left) := by
  intro s hs
  refine endsAs_operator_bind hs ?_ fun op l hl => ?_
  · dsimp only
    rw [bind_apply_ok (get_apply s), bind_apply_ok (get_apply s.parser)]
    by_cases hsuffixes : s.suffixes = true
    · rw [if_pos hsuffixes, if_pos (c := s.parser.suffixes = true) hsuffixes]
      refine (performs_suffix? left hs).bind fun found t _ ht => ?_
      cases found with
      | some e => exact .ok _ ht rfl
      | none => exact .ok _ ht rfl
    · rw [if_neg hsuffixes, if_neg (c := s.parser.suffixes = true) hsuffixes]
      exact .ok _ hs rfl
  · dsimp only
    split
    · exact .ok _ hs rfl
    · exact (performs_operand.bind fun operand => (performs_tighten op operand).bind fun right =>
        performs_pure _) hl

theorem performs_tightenRound (op : BinaryOp) (right : Expr) :
    Performs (tightenRound op right) (Parse.tightenRound op right) := by
  intro s hs
  refine endsAs_operator_bind hs (.ok _ hs rfl) fun tighter l hl => ?_
  dsimp only
  rw [bind_apply_ok (restore_apply s.lexer _)]
  split
  · exact .ok _ hs rfl
  · exact ((performs_climb right _).bind fun right => performs_pure _) hs

theorem performs_listRound (list : Nat × List String) :
    Performs (listRound list) (Parse.listRound list) := by
  refine performs_expectToken.bind fun t => ?_
  cases TokenStream.depthBehind? list.1 t <;> exact performs_pure _

/-- The texts of a list, behind those that have been read, are those of its rounds. -/
theorem textsWithin_eq_rounds (budget depth : Nat) (texts : List String) :
    (texts ++ ·) <$> textsWithin budget depth = rounds listRound budget (depth, texts) := by
  induction budget generalizing depth texts with
  | zero => rfl
  | succ budget ih =>
      rw [textsWithin, rounds, listRound, map_eq_pure_bind, bind_assoc, bind_assoc]
      refine congrArg (expectToken >>= ·) (funext fun t => ?_)
      cases TokenStream.depthBehind? depth t with
      | none => simp only [pure_bind, List.append_nil, goOn]
      | some depth' =>
          simp only [bind_assoc, pure_bind, goOn, ← ih, map_eq_pure_bind, List.append_assoc,
            List.singleton_append]

theorem performs_textsBehind (budget : Nat) (list : Nat × List String) :
    Performs ((list.2 ++ ·) <$> textsWithin budget list.1)
      (rounds Parse.listRound budget list) :=
  textsWithin_eq_rounds budget list.1 list.2 ▸ performs_rounds performs_listRound budget list

/-! ## Clauses -/

/-- Reads a form, and asks for another one behind a comma. -/
def itemRound (form : Scan α) (items : List α) : Scan (Turn (List α) (List α)) := do
  let a ← form
  if ← accept "," then return .again (items ++ [a]) else return .last (items ++ [a])

/-- Takes a token of a trigger's body. -/
def bodyRound : Unit → Scan (Turn Unit Unit)
  | () => do
    if ← accept ";" then
      if ← accept "END" then return .last () else return .again ()
    else
      let _ ← expectToken
      return .again ()

/-- Takes a token of a view, up to a semicolon or the end. -/
def viewRound : Unit → Scan (Turn Unit Unit)
  | () => do
    if ← atEnd then return .last ()
    else if ← isNext [";"] then return .last ()
    else
      let _ ← expectToken
      return .again ()

/-- Takes one of the words. Another token is pushed back. -/
def wordRound (words : List String) : Unit → Scan (Turn Unit Unit)
  | () => do
    match ← oneOf (plainWords words) true with
    | some _ => return .again ()
    | none => return .last ()

/-- Takes any token as the name of an object. -/
def expectName : Scan String := do
  let t ← expectToken
  return t.name

/-- `ASC` or `DESC`, if one is there. -/
def direction : Scan Unit := do
  let _ ← oneOf (plainWords ["ASC", "DESC"]) true

/-- A column of an index: a name, a collation, a direction. -/
def indexedColumn : Scan String := do
  let name ← expectName
  if ← accept "COLLATE" then
    let _ ← oneOf (plainWords ["BINARY", "NOCASE", "RTRIM", "LOCALIZED", "UNICODE"]) false
  direction
  return name

/-- An expression of ORDER BY with its direction. -/
def orderingTerm : Scan Unit := do
  let _ ← expression
  direction

theorem performs_itemRound {form : Scan α} {form' : Parse α} (h : Performs form form')
    (items : List α) : Performs (itemRound form items) (Parse.itemRound form' items) := by
  refine h.bind fun a => (performs_accept ",").bind fun more => ?_
  cases more <;> exact performs_pure _

theorem performs_argumentsBehind (budget : Nat) (items : List Expr) :
    Performs ((items ++ ·) <$> argumentsWithin budget)
      ((items ++ ·) <$> Parse.argumentsWithin budget) := by
  rw [map_eq_pure_bind, map_eq_pure_bind]
  exact (performsWithin budget).arguments.bind fun _ => performs_pure _

theorem performs_bodyRound (u : Unit) : Performs (bodyRound u) (Parse.bodyRound u) := by
  refine (performs_accept ";").bind fun closed => ?_
  cases closed with
  | true =>
      refine (performs_accept "END").bind fun ended => ?_
      cases ended <;> exact performs_pure _
  | false => exact performs_expectToken.bind fun _ => performs_pure _

theorem performs_viewRound (u : Unit) : Performs (viewRound u) (Parse.viewRound u) := by
  refine performs_atEnd.bind fun ended => ?_
  cases ended with
  | true => exact performs_pure _
  | false =>
      refine (performs_isNext [";"]).bind fun closed => ?_
      cases closed with
      | true => exact performs_pure _
      | false => exact performs_expectToken.bind fun _ => performs_pure _

theorem performs_wordRound (words : List String) (u : Unit) :
    Performs (wordRound words u) (Parse.wordRound words u) := by
  refine (performs_oneOf _).bind fun found => ?_
  cases found <;> exact performs_pure _

theorem performs_expectName : Performs expectName Parse.expectName :=
  performs_expectToken.bind fun _ => performs_pure _

theorem performs_direction : Performs direction Parse.direction :=
  (performs_oneOf _).bind fun _ => performs_pure _

theorem performs_indexedColumn : Performs indexedColumn Parse.indexedColumn := by
  refine performs_expectName.bind fun name => (performs_accept "COLLATE").bind fun found => ?_
  cases found with
  | true =>
      exact performs_oneOf_bind fun _ => performs_direction.bind fun _ => performs_pure _
  | false => exact performs_direction.bind fun _ => performs_pure _

theorem performs_orderingTerm : Performs orderingTerm Select.orderingTerm :=
  performs_expression.bind fun _ => performs_direction

end Scan

end OnePassSql

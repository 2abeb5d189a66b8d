import OnePassSql.Proofs.Parser.Scanning

/-!
What the steps of a parser take from its lexer. A step that looks, or does not find what it is for,
takes nothing: the position stays, and all tokens come that would have come without it, up to the
end or the character that no token starts with. A step that matches takes the token that its result
tells, and an operator its one or two. This holds wherever reading can come to, by steps and by
whole expressions, with a token that was pushed back before and at the end of the text as well.
-/

namespace OnePassSql

open Step TokenStream

/-! ## Steps on a stream -/

namespace Parse

variable {α : Type} {p q : Parser}

theorem stateAfter_peek_bind_pure (view : Option Token → α) (p : Parser) :
    stateAfter (peek >>= fun t => pure (view t)) p = p := by
  cases h : p.ahead with
  | token first rest =>
      rw [stateAfter_bind_of_ok (peek_of_token h)]
      rfl
  | done n =>
      rw [stateAfter_bind_of_ok (peek_of_done h)]
      rfl
  | fault ch n => exact stateAfter_bind_of_error (peek_of_fault h) _

theorem expectNumber_eq_ok {n : Int64} (h : expectNumber p = .ok n q) :
    ∃ t, p.ahead = .token t q.ahead ∧ t.kind = .number ∧ integerOfText? t.text = some n := by
  rw [expectNumber_eq_takeNext] at h
  obtain ⟨t, hahead, hmake⟩ := takeNext_eq_ok h
  split at hmake
  · next hkind =>
      cases hvalue : integerOfText? t.text with
      | some m =>
          rw [hvalue] at hmake
          cases hmake
          exact ⟨t, hahead, hkind, hvalue⟩
      | none =>
          rw [hvalue] at hmake
          cases hmake
  · cases hmake

theorem expectString_eq_ok {text : String} (h : expectString p = .ok text q) :
    ∃ t, p.ahead = .token t q.ahead ∧ t.kind = .string ∧ t.unquoted = text := by
  rw [expectString_eq_takeNext] at h
  obtain ⟨t, hahead, hmake⟩ := takeNext_eq_ok h
  split at hmake
  · next hkind =>
      cases hmake
      exact ⟨t, hahead, hkind, rfl⟩
  · cases hmake

/-- Takes the operator that is next, on a stream. -/
def takeOperator? : Parse (Option BinaryOp) := do
  match ← peekOperator? with
  | some (op, behind) => resume behind; return some op
  | none => return none

end Parse

/-! ## What is taken from the lexer -/

namespace Scanner

variable {α : Type} {s t : Scanner}

/-- From the first state to the second exactly the given tokens are taken. -/
def Takes (s : Scanner) (tokens : List Token) (t : Scanner) : Prop :=
  s.lexer.Passes tokens t.lexer

/-- The token is taken that gives what was found; if nothing was found, none is. -/
def TakesFound (s : Scanner) (means : Token → Option α) (found : Option α) (t : Scanner) : Prop :=
  found = none ∧ s.Takes [] t ∨ ∃ a u, found = some a ∧ means u = some a ∧ s.Takes [u] t

/-- The signs of the operator are taken: one that the next token does not go on with, or two side by
side. -/
def TakesSigns (s : Scanner) (op : BinaryOp) (t : Scanner) : Prop :=
  (∃ u, Parse.meaning? Parse.singleSigns u = some op ∧ s.Takes [u] t ∧
      ∀ v, t.lexer.advance.1 = .ok (some v) → Parse.paired? u v = none) ∨
    ∃ u v, Parse.paired? u v = some op ∧ s.Takes [u, v] t

theorem takes_of_ahead (hs : s.Settled) (ht : t.Settled) {tokens : List Token}
    (h : s.parser.ahead = prepend tokens t.parser.ahead) : s.Takes tokens t :=
  Lexer.passes_of_prepend hs ht h

/-- Each step that gives a result takes the tokens that the result tells, and a look takes none,
also if it meets a fault. An operator comes with the lexer before it. -/
structure TakesAsTold (s : Scanner) : Prop where
  isNext (words : List String) : s.Takes [] (stateAfter (Scan.isNext words) s)
  atEnd : s.Takes [] (stateAfter Scan.atEnd s)
  oneOf {α : Type} {options : List (String × α)} {acceptOther : Bool} {found : Option α}
    {t : Scanner} : Scan.oneOf options acceptOther s = .ok found t →
      s.TakesFound (Parse.meaning? options) found t
  accept {word : String} {found : Bool} {t : Scanner} : Scan.accept word s = .ok found t →
    found = false ∧ s.Takes [] t ∨ found = true ∧ ∃ u, u.is word = true ∧ s.Takes [u] t
  holding? {α : Type} {fragments : List (String × α)} {found : Option α} {t : Scanner} :
    Scan.holding? fragments s = .ok found t → s.TakesFound (Parse.held? fragments) found t
  operator? {found : Option (BinaryOp × Lexer)} {t : Scanner} : Scan.operator? s = .ok found t →
    found = none ∧ s.Takes [] t ∨ ∃ op, found = some (op, s.lexer) ∧ s.TakesSigns op t
  leastInteger? {minus : Token} {found : Option Expr} {t : Scanner} :
    Scan.leastInteger? minus s = .ok found t →
      found = none ∧ s.Takes [] t ∨ found = some (.literal (.integer Int64.minValue)) ∧
        ∃ u, Parse.SpellsLeast minus u ∧ s.Takes [u] t
  expect {word : String} {t : Scanner} : Scan.expect word s = .ok ⟨⟩ t →
    ∃ u, u.is word = true ∧ s.Takes [u] t
  expectToken {u : Token} {t : Scanner} : Scan.expectToken s = .ok u t → s.Takes [u] t
  expectText {text : String} {t : Scanner} : Scan.expectText s = .ok text t →
    ∃ u, u.text = text ∧ s.Takes [u] t
  expectNumber {n : Int64} {t : Scanner} : Scan.expectNumber s = .ok n t →
    ∃ u, u.kind = .number ∧ integerOfText? u.text = some n ∧ s.Takes [u] t
  expectString {text : String} {t : Scanner} : Scan.expectString s = .ok text t →
    ∃ u, u.kind = .string ∧ u.unquoted = text ∧ s.Takes [u] t
  expectEnd {t : Scanner} : Scan.expectEnd s = .ok ⟨⟩ t →
    (∃ u, u.is ";" = true ∧ s.Takes [u] t) ∨ s.lexer.advance.1 = .ok none ∧ s.Takes [] t

end Scanner

namespace Scan

open Scanner

variable {α β : Type} {s t : Scanner}

theorem Performs.stateAfter {x : Scan α} {y : Parse α} (h : Performs x y) (hs : s.Settled) :
    (Step.stateAfter x s).Settled ∧
      (Step.stateAfter x s).parser = Step.stateAfter y s.parser := by
  have hends := h hs
  generalize hx : x s = result at hends
  generalize hy : y s.parser = result' at hends
  cases hends with
  | ok a ht hparser =>
      rw [stateAfter_of_ok hx, stateAfter_of_ok hy]
      exact ⟨ht, hparser⟩
  | error e ht hparser =>
      rw [stateAfter_of_error hx, stateAfter_of_error hy]
      exact ⟨ht, hparser⟩

theorem takes_look (hs : s.Settled) (view : Option Token → α) :
    s.Takes [] (stateAfter (look view) s) := by
  obtain ⟨hsettled, hparser⟩ := (performs_look view).stateAfter hs
  rw [Parse.stateAfter_peek_bind_pure] at hparser
  exact takes_of_ahead hs hsettled (congrArg Parser.ahead hparser.symm)

theorem takesFound_takeIf (hs : s.Settled) {means : Token → Option α} {found : Option α}
    (h : takeIf means s = .ok found t) : s.TakesFound means found t := by
  obtain ⟨hstep, ht⟩ := (performs_takeIf means).eq_ok hs h
  rcases Parse.takeIf_eq_ok hstep with
    ⟨rfl, hparser⟩ | ⟨a, u, rest, rfl, hmeans, hahead, hparser⟩
  · exact .inl ⟨rfl, takes_of_ahead hs ht (congrArg Parser.ahead hparser.symm)⟩
  · exact .inr ⟨a, u, rfl, hmeans, takes_of_ahead hs ht (by rw [hparser]; exact hahead)⟩

theorem takes_oneOf_or_refuse (hs : s.Settled) {options : List (String × α)} {found : Option α}
    (h : oneOf options false s = .ok found t) :
    ∃ a u, found = some a ∧ Parse.meaning? options u = some a ∧ s.Takes [u] t := by
  obtain ⟨hstep, ht⟩ := (performs_oneOf_or_refuse options).eq_ok hs h
  rw [map_eq_pure_bind] at hstep
  obtain ⟨a, p, hexpect, hfound⟩ := bind_eq_ok.mp hstep
  obtain ⟨rfl, hp⟩ := EStateM.Result.ok.inj hfound
  obtain ⟨u, rest, hmeaning, hahead, rfl⟩ := Parse.expectOne_eq_ok hexpect
  exact ⟨a, u, rfl, hmeaning, takes_of_ahead hs ht (by rw [← hp]; exact hahead)⟩

theorem takesFound_oneOf (hs : s.Settled) {options : List (String × α)} {acceptOther : Bool}
    {found : Option α} (h : oneOf options acceptOther s = .ok found t) :
    s.TakesFound (Parse.meaning? options) found t := by
  cases acceptOther with
  | true => exact takesFound_takeIf hs h
  | false =>
      exact .inr (takes_oneOf_or_refuse hs h)

theorem takes_accept (hs : s.Settled) {word : String} {found : Bool}
    (h : accept word s = .ok found t) :
    found = false ∧ s.Takes [] t ∨ found = true ∧ ∃ u, u.is word = true ∧ s.Takes [u] t := by
  obtain ⟨option, u, honeOf, hfound⟩ := bind_eq_ok.mp h
  cases hfound
  rcases takesFound_oneOf hs honeOf with ⟨rfl, htakes⟩ | ⟨_, u, rfl, hmeaning, htakes⟩
  · exact .inl ⟨rfl, htakes⟩
  · obtain ⟨_, hword, his⟩ := Parse.exists_of_meaning? hmeaning
    cases List.mem_singleton.mp hword
    exact .inr ⟨rfl, u, his, htakes⟩

theorem takes_expect (hs : s.Settled) {word : String} (h : expect word s = .ok ⟨⟩ t) :
    ∃ u, u.is word = true ∧ s.Takes [u] t := by
  obtain ⟨_, _, honeOf, hdone⟩ := bind_eq_ok.mp h
  cases hdone
  obtain ⟨_, u, -, hmeaning, htakes⟩ := takes_oneOf_or_refuse hs honeOf
  obtain ⟨_, hword, his⟩ := Parse.exists_of_meaning? hmeaning
  cases List.mem_singleton.mp hword
  exact ⟨u, his, htakes⟩

theorem takes_expectToken (hs : s.Settled) {u : Token} (h : expectToken s = .ok u t) :
    s.Takes [u] t := by
  obtain ⟨hstep, ht⟩ := performs_expectToken.eq_ok hs h
  obtain ⟨rest, hahead, hparser⟩ := Parse.expectToken_eq_ok hstep
  exact takes_of_ahead hs ht (by rw [hparser]; exact hahead)

theorem takes_expectText (hs : s.Settled) {text : String} (h : expectText s = .ok text t) :
    ∃ u, u.text = text ∧ s.Takes [u] t := by
  obtain ⟨u, _, hexpect, htext⟩ := bind_eq_ok.mp h
  cases htext
  exact ⟨u, rfl, takes_expectToken hs hexpect⟩

theorem takes_expectNumber (hs : s.Settled) {n : Int64} (h : expectNumber s = .ok n t) :
    ∃ u, u.kind = .number ∧ integerOfText? u.text = some n ∧ s.Takes [u] t := by
  obtain ⟨hstep, ht⟩ := performs_expectNumber.eq_ok hs h
  obtain ⟨u, hahead, hkind, hvalue⟩ := Parse.expectNumber_eq_ok hstep
  exact ⟨u, hkind, hvalue, takes_of_ahead hs ht hahead⟩

theorem takes_expectString (hs : s.Settled) {text : String} (h : expectString s = .ok text t) :
    ∃ u, u.kind = .string ∧ u.unquoted = text ∧ s.Takes [u] t := by
  obtain ⟨hstep, ht⟩ := performs_expectString.eq_ok hs h
  obtain ⟨u, hahead, hkind, htext⟩ := Parse.expectString_eq_ok hstep
  exact ⟨u, hkind, htext, takes_of_ahead hs ht hahead⟩

theorem takes_expectEnd (hs : s.Settled) (h : expectEnd s = .ok ⟨⟩ t) :
    (∃ u, u.is ";" = true ∧ s.Takes [u] t) ∨ s.lexer.advance.1 = .ok none ∧ s.Takes [] t := by
  obtain ⟨hstep, ht⟩ := performs_expectEnd.eq_ok hs h
  rcases Parse.expectEnd_eq_ok hstep with ⟨n, hahead⟩ | ⟨u, rest, hahead, his⟩
  · rw [Parse.expectEnd_of_done hahead] at hstep
    obtain ⟨-, hparser⟩ := EStateM.Result.ok.inj hstep
    refine .inr ⟨?_, takes_of_ahead hs ht (congrArg Parser.ahead hparser)⟩
    rw [Lexer.advance_of_done hahead]
  · rw [Parse.expectEnd_of_semicolon hahead his] at hstep
    obtain ⟨-, hparser⟩ := EStateM.Result.ok.inj hstep
    exact .inl ⟨u, his, takes_of_ahead hs ht (by rw [← hparser]; exact hahead)⟩

theorem takes_operator? (hs : s.Settled) {found : Option (BinaryOp × Lexer)}
    (h : operator? s = .ok found t) :
    found = none ∧ s.Takes [] t ∨ ∃ op, found = some (op, s.lexer) ∧ s.TakesSigns op t := by
  have hfinds := findsOperator hs
  generalize hpeek : Parse.peekOperator? s.parser = result at hfinds
  rw [h] at hfinds
  cases hfinds with
  | none => exact .inl ⟨rfl, takes_of_ahead hs hs rfl⟩
  | some op hl =>
      refine .inr ⟨op, rfl, ?_⟩
      obtain ⟨hsees, -⟩ := Parse.peekOperator?_eq_ok_iff.mp hpeek
      rcases hsees.signs with ⟨u, hahead, hsign, halone⟩ | ⟨u, v, hahead, hpaired⟩
      · refine .inl ⟨u, hsign, takes_of_ahead hs hl hahead, fun v hv => ?_⟩
        obtain ⟨rest, hrest⟩ := Lexer.stream_of_advance hl hv
        exact halone v rest hrest
      · exact .inr ⟨u, v, hpaired, takes_of_ahead hs hl hahead⟩

theorem takes_leastInteger? (hs : s.Settled) {minus : Token} {found : Option Expr}
    (h : leastInteger? minus s = .ok found t) :
    found = none ∧ s.Takes [] t ∨ found = some (.literal (.integer Int64.minValue)) ∧
      ∃ u, Parse.SpellsLeast minus u ∧ s.Takes [u] t := by
  obtain ⟨hstep, ht⟩ := (performs_leastInteger? minus).eq_ok hs h
  obtain ⟨-, -, ⟨rfl, hparser⟩ | ⟨u, rfl, hahead, hspells, -⟩⟩ := Parse.leastInteger?_eq_ok hstep
  · exact .inl ⟨rfl, takes_of_ahead hs ht (congrArg Parser.ahead hparser.symm)⟩
  · exact .inr ⟨rfl, u, hspells, takes_of_ahead hs ht hahead⟩

theorem takesAsTold (hs : s.Settled) : s.TakesAsTold where
  isNext _ := takes_look hs _
  atEnd := takes_look hs _
  oneOf := takesFound_oneOf hs
  accept := takes_accept hs
  holding? := takesFound_takeIf hs
  operator? := takes_operator? hs
  leastInteger? := takes_leastInteger? hs
  expect := takes_expect hs
  expectToken := takes_expectToken hs
  expectText := takes_expectText hs
  expectNumber := takes_expectNumber hs
  expectString := takes_expectString hs
  expectEnd := takes_expectEnd hs

/-! ## Where reading can come to -/

theorem performs_expectText : Performs expectText (Token.text <$> Parse.expectToken) := by
  rw [map_eq_pure_bind]
  exact performs_expectToken.bind fun t => performs_pure t.text

theorem performs_operator? :
    Performs (Option.map Prod.fst <$> operator?) Parse.takeOperator? := by
  rw [map_eq_pure_bind]
  exact fun _ hs => endsAs_operator_bind hs (.ok _ hs rfl) fun op l hl => .ok _ hl rfl

/-- The steps that a parser on a lexer is called by, and what they are on a stream. -/
inductive Call : {α : Type} → Scan α → Parse α → Prop
  | oneOf {α : Type} (options : List (String × α)) :
      Call (oneOf options true) (Parse.acceptOne? options)
  | oneOf_or_refuse {α : Type} (options : List (String × α)) :
      Call (Scan.oneOf options false) (some <$> Parse.expectOne options)
  | accept (word : String) : Call (accept word) (Parse.accept word)
  | expect (word : String) : Call (expect word) (Parse.expect word)
  | holding? {α : Type} (fragments : List (String × α)) :
      Call (holding? fragments) (Parse.acceptHolding? fragments)
  | isNext (words : List String) : Call (isNext words) (Parse.isNext words)
  | atEnd : Call atEnd Parse.atEnd
  | expectToken : Call expectToken Parse.expectToken
  | expectText : Call expectText (Token.text <$> Parse.expectToken)
  | expectNumber : Call expectNumber Parse.expectNumber
  | expectString : Call expectString Parse.expectString
  | expectEnd : Call expectEnd Parse.expectEnd
  | operator? : Call (Option.map Prod.fst <$> operator?) Parse.takeOperator?
  | leastInteger? (minus : Token) : Call (leastInteger? minus) (Parse.leastInteger? minus)
  | parameter (question : Token) : Call (parameter question) (Parse.parameter question)
  | suffix? (left : Expr) : Call (suffix? left) (Parse.suffix? left)
  | expression : Call expression Parse.expression
  | constantExpression : Call constantExpression Parse.constantExpression
  | operand : Call operand Parse.operand

theorem performs_of_call {x : Scan α} {y : Parse α} (h : Call x y) : Performs x y := by
  cases h with
  | oneOf options => exact performs_oneOf options
  | oneOf_or_refuse options => exact performs_oneOf_or_refuse options
  | accept word => exact performs_accept word
  | expect word => exact performs_expect word
  | holding? fragments => exact performs_holding? fragments
  | isNext words => exact performs_isNext words
  | atEnd => exact performs_atEnd
  | expectToken => exact performs_expectToken
  | expectText => exact performs_expectText
  | expectNumber => exact performs_expectNumber
  | expectString => exact performs_expectString
  | expectEnd => exact performs_expectEnd
  | operator? => exact performs_operator?
  | leastInteger? minus => exact performs_leastInteger? minus
  | parameter question => exact performs_parameter question
  | suffix? left => exact performs_suffix? left
  | expression => exact performs_expression
  | constantExpression => exact performs_constantExpression
  | operand => exact performs_operand

end Scan

namespace Scanner

open Scan

/-- A state that calls which succeed lead to from the start of a text. -/
inductive Reached (sql : String) : Scanner → Prop
  | start : Reached sql (ofText sql)
  | call {α : Type} {x : Scan α} {y : Parse α} {a : α} {s t : Scanner} :
      Reached sql s → Call x y → x s = .ok a t → Reached sql t

theorem Reached.settled {sql : String} {s : Scanner} (h : Reached sql s) : s.Settled := by
  induction h with
  | start => exact Lexer.settled_of_ahead _ _
  | call _ hcall hx ih => exact ((performs_of_call hcall).eq_ok ih hx).2

/-- Wherever the calls lead to, each step takes from the lexer the tokens that its result tells, and
every call does what it is on a stream. -/
theorem takesAsTold_of_reached {sql : String} {s : Scanner} (h : Reached sql s) :
    s.TakesAsTold ∧
      ∀ {α : Type} {x : Scan α} {y : Parse α}, Call x y → EndsAs (x s) (y s.parser) :=
  ⟨takesAsTold h.settled, fun hcall => performs_of_call hcall h.settled⟩

/-- An operator of two signs, of which the first was pushed back before. -/
theorem takesAsTold_of_reached_pushedBack :
    ∃ s t, Reached "x >> 5" s ∧ s.lexer.pushedBack = true ∧ s.Takes [] (stateAfter atEnd s) ∧
      operator? s = .ok (some (.shiftRight, s.lexer)) t ∧ s.TakesSigns .shiftRight t ∧
      t.lexer.position = 5 := by
  let behindName := stateAfter expectToken (ofText "x >> 5")
  let s := stateAfter (Scan.isNext [";"]) behindName
  let t := stateAfter operator? s
  have hname : expectToken (ofText "x >> 5") = .ok ⟨.word, "x", 0⟩ behindName :=
    eq_ok_of_run' (by decide +kernel)
  have hlook : Scan.isNext [";"] behindName = .ok false s := eq_ok_of_run' (by decide +kernel)
  have hoperator : operator? s = .ok (some (.shiftRight, s.lexer)) t :=
    eq_ok_of_run' (by decide +kernel)
  have hreached : Reached "x >> 5" s :=
    (Reached.start.call .expectToken hname).call (.isNext [";"]) hlook
  obtain ⟨htakes, -⟩ := takesAsTold_of_reached hreached
  rcases htakes.operator? hoperator with ⟨hnone, -⟩ | ⟨op, hop, hsigns⟩
  · cases hnone
  · cases hop
    exact ⟨s, t, hreached, by decide +kernel, htakes.atEnd, hoperator, hsigns, by decide +kernel⟩

end Scanner

end OnePassSql

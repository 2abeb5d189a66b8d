import Mathlib.Data.List.Forall2
import OnePassSql.Proofs.Bindings
import OnePassSql.Proofs.Parser.Completeness

/-!
Expressions that one parser reads, one after the other. The question marks in them that do not stand
in the list of a membership test are their places, each once and in the order of the text, and the
cursor goes on from the one expression to the next.
-/

namespace OnePassSql

/-! ## The question marks of a text -/

namespace TokenStream

open Parse

/-- The question marks from a stream on up to where it stops, but for those in the lists of
membership tests: each with its number, if one stands directly behind it. -/
inductive Questions (stop : TokenStream) : TokenStream → List (Option Nat) → Prop where
  | stop : Questions stop stop []
  /-- A token that is neither a question mark nor opens a list. -/
  | pass {t : Token} {s : TokenStream} {marks : List (Option Nat)} :
      t.is "?" = false → (t.is "IN" = true → s = stop ∨ ¬s.At ["("]) → Questions stop s marks →
      Questions stop (.token t s) marks
  | plain {t : Token} {s : TokenStream} {marks : List (Option Nat)} :
      t.is "?" = true → (∀ number rest, s = .token number rest → ¬IsNumberBehind t number) →
      Questions stop s marks → Questions stop (.token t s) (none :: marks)
  | numbered {t number : Token} {s : TokenStream} {marks : List (Option Nat)} :
      t.is "?" = true → IsNumberBehind t number → Questions stop s marks →
      Questions stop (.token t (.token number s))
        (some (Binary64.digitsValue number.text.toList) :: marks)
  | list {t : Token} {s s₁ s₂ : TokenStream} {tokens : List Token} {marks : List (Option Nat)} :
      t.is "IN" = true → Words ["("] s s₁ → s₁.enclosed? 1 = some (tokens, s₂) →
      Questions stop s₂ marks → Questions stop (.token t s) marks

section Questions

variable {stop s s₁ s' : TokenStream} {marks more : List (Option Nat)} {word : String}

theorem Questions.leadsTo (h : Questions stop s marks) : s.LeadsTo stop := by
  induction h with
  | stop => exact .refl stop
  | pass _ _ _ ih => exact .token _ ih
  | plain _ _ _ ih => exact .token _ ih
  | numbered _ _ _ ih => exact .token _ (.token _ ih)
  | list _ hopen hlist _ ih =>
      exact .token _ ((hopen.leadsTo.trans (leadsTo_of_enclosed? hlist)).trans ih)

theorem is_in_of_question {t : Token} (h : t.is "?" = true) : t.is "IN" = false :=
  (is_eq_of_is h "IN").trans (by decide)

/-- Behind an opened list there is less than where it opens. -/
theorem Questions.not_list {s₂ : TokenStream} {tokens : List Token}
    (hpass : s = stop ∨ ¬s.At ["("]) (hopen : Words ["("] s s₁)
    (hlist : s₁.enclosed? 1 = some (tokens, s₂)) : ¬Questions stop s₂ marks := by
  intro hmore
  rcases hpass with rfl | hnot
  · cases hopen with
    | cons _ hnil =>
        cases hnil
        exact not_leadsTo_token _ _ ((leadsTo_of_enclosed? hlist).trans hmore.leadsTo)
  · exact hnot hopen.at

/-- The text alone says what its question marks are. -/
theorem Questions.unique (h : Questions stop s marks) (h' : Questions stop s more) :
    marks = more := by
  induction h generalizing more with
  | stop =>
      cases h' with
      | stop => rfl
      | pass _ _ hmore | plain _ _ hmore => exact absurd hmore.leadsTo (not_leadsTo_token _ _)
      | numbered _ _ hmore =>
          exact absurd (LeadsTo.token _ hmore.leadsTo) (not_leadsTo_token _ _)
      | list _ hopen hlist hmore =>
          have hbehind := hopen.leadsTo.trans ((leadsTo_of_enclosed? hlist).trans hmore.leadsTo)
          exact absurd hbehind (not_leadsTo_token _ _)
  | pass hno hin hmore ih =>
      cases h' with
      | stop => exact absurd hmore.leadsTo (not_leadsTo_token _ _)
      | pass _ _ hmore' => exact ih hmore'
      | plain his _ _ | numbered his _ _ => cases hno.symm.trans his
      | list his hopen hlist hmore' => exact absurd hmore' (Questions.not_list (hin his) hopen hlist)
  | plain his hplain hmore ih =>
      cases h' with
      | stop => exact absurd hmore.leadsTo (not_leadsTo_token _ _)
      | pass hno _ _ => cases hno.symm.trans his
      | plain _ _ hmore' => rw [ih hmore']
      | numbered _ hnumber _ => exact absurd hnumber (hplain _ _ rfl)
      | list hin _ _ _ => cases (is_in_of_question his).symm.trans hin
  | numbered his hnumber hmore ih =>
      cases h' with
      | stop => exact absurd (LeadsTo.token _ hmore.leadsTo) (not_leadsTo_token _ _)
      | pass hno _ _ => cases hno.symm.trans his
      | plain _ hplain _ => exact absurd hnumber (hplain _ _ rfl)
      | numbered _ _ hmore' => rw [ih hmore']
      | list hin _ _ _ => cases (is_in_of_question his).symm.trans hin
  | list his hopen hlist hmore ih =>
      cases h' with
      | stop =>
          have hbehind := hopen.leadsTo.trans ((leadsTo_of_enclosed? hlist).trans hmore.leadsTo)
          exact absurd hbehind (not_leadsTo_token _ _)
      | pass _ hin _ => exact absurd hmore (Questions.not_list (hin his) hopen hlist)
      | plain his' _ _ | numbered his' _ _ => cases (is_in_of_question his').symm.trans his
      | list _ hopen' hlist' hmore' =>
          cases hopen.right_unique hopen'
          cases hlist.symm.trans hlist'
          exact ih hmore'

theorem questions_of_words {words : List String} (h : Words words s s₁)
    (hwords : ∀ word ∈ words, Text.sameWord word "?" = false ∧ Text.sameWord word "IN" = false)
    (hmore : Questions stop s₁ marks) : Questions stop s marks := by
  induction h with
  | nil s => exact hmore
  | cons his _ ih =>
      rw [List.forall_mem_cons] at hwords
      refine .pass ((is_eq_of_is his "?").trans hwords.1.1) (fun hin => ?_) (ih hwords.2 hmore)
      cases ((is_eq_of_is his "IN").trans hwords.1.2).symm.trans hin

theorem not_at_parenthesis {words : List String} (h : s.At words)
    (hwords : ∀ word ∈ words, Text.sameWord word "(" = false) : ¬s.At ["("] := by
  intro hat
  obtain ⟨t, rest, rfl, word, hmem, his⟩ := at_iff.mp h
  obtain ⟨_, _, hnext, _, hopen, his'⟩ := at_iff.mp hat
  cases hnext
  cases List.mem_singleton.mp hopen
  cases (hwords word hmem).symm.trans ((is_eq_of_is his "(").symm.trans his')

end Questions

end TokenStream

namespace Parse

open Step TokenStream

/-- The tokens that operators are written with. -/
def operatorSigns : List String := "|" :: singleSigns.map Prod.fst

theorem exists_signs_of_peekOperator? {op : BinaryOp} {s₁ : TokenStream} {p q : Parser}
    (h : peekOperator? p = .ok (some (op, s₁)) q) :
    ∃ sign more, Words (sign :: more) p.ahead s₁ ∧
      ∀ word ∈ sign :: more, word ∈ operatorSigns := by
  have hpairs : ∀ (op : BinaryOp), ∀ pair ∈ op.signPairs, ∀ word ∈ [pair.1, pair.2],
      word ∈ operatorSigns := by
    intro op
    cases op <;> decide
  obtain ⟨hsees, -⟩ := peekOperator?_eq_ok_iff.mp h
  rcases hsees.signs with ⟨t, hahead, hmeaning, -⟩ | ⟨t, u, hahead, hpaired⟩
  · obtain ⟨sign, hmem, his⟩ := exists_of_meaning? hmeaning
    rw [hahead]
    refine ⟨sign, [], .cons his (.nil _), List.forall_mem_singleton.mpr ?_⟩
    exact List.mem_cons_of_mem _ (List.mem_map_of_mem (f := Prod.fst) hmem)
  · obtain ⟨-, sign, sign', hmem, his, his'⟩ := exists_signPair_of_paired? hpaired
    rw [hahead]
    exact ⟨sign, [sign'], .cons his (.cons his' (.nil _)), hpairs op _ hmem⟩

section Derived

variable {stop s s₁ s' : TokenStream} {marks more : List (Option Nat)} {calls i : Bool}
  {part : Part}

/-- A form has no question marks but those in its list. -/
theorem questions_of_form {form : PostfixForm} (h : Form form s s₁)
    (hmore : Questions stop s₁ marks) : Questions stop s marks := by
  cases h with
  | notNull hmem hwords =>
      have hplain : ∀ words ∈ [["NOT", "NULL"], ["NOTNULL"]], ∀ word ∈ words,
          Text.sameWord word "?" = false ∧ Text.sameWord word "IN" = false := by decide
      exact questions_of_words hwords (hplain _ hmem) hmore
  | isNull hwords => exact questions_of_words hwords (by decide) hmore
  | @membership _ _ _ _ s₂ _ hmem hwords hlist =>
      have hlist' : ∀ {s : TokenStream}, Words ["IN", "("] s s₂ → Questions stop s marks := by
        intro s hwords
        cases hwords with
        | cons hin hopen => exact .list hin hopen hlist hmore
      simp only [List.mem_cons, Prod.mk.injEq, List.not_mem_nil, or_false] at hmem
      rcases hmem with ⟨rfl, -⟩ | ⟨rfl, -⟩
      · exact hlist' hwords
      · obtain ⟨s₂, hnot, hwords⟩ := hwords.exists_of_cons
        exact questions_of_words hnot (by decide) (hlist' hwords)

/-- What is derived has the question marks of its derivation, with those further on behind them. What
follows an operand never starts with a parenthesis. -/
theorem questions_of_spans (h : Spans calls i part s marks s') (hmore : Questions stop s' more)
    (hs' : s' = stop ∨ ¬s'.At ["("]) :
    Questions stop s (marks ++ more) ∧ (part = .behind → s = stop ∨ ¬s.At ["("]) := by
  have hplain : ∀ word ∈ ["NOT", "-", "NULL", "(", ")", ",", "COALESCE"] ++ operatorSigns,
      Text.sameWord word "?" = false ∧ Text.sameWord word "IN" = false := by decide
  have hwords : ∀ {words : List String}, words ⊆ ["NOT", "-", "NULL", "(", ")", ",", "COALESCE"] →
      ∀ word ∈ words, Text.sameWord word "?" = false ∧ Text.sameWord word "IN" = false :=
    fun hsub word hmem => hplain word (List.mem_append_left _ (hsub hmem))
  induction h generalizing more with
  | sign his _ ih =>
      have hbehind := (ih hmore hs').1
      rcases his with his | his <;>
        exact ⟨questions_of_words (.cons his (.nil _)) (hwords (by decide)) hbehind, nofun⟩
  | atom his _ ih =>
      obtain ⟨hbehind, hnext⟩ := ih hmore hs'
      rcases his with his | ⟨-, hatom⟩
      · exact ⟨questions_of_words (.cons his (.nil _)) (hwords (by decide)) hbehind, nofun⟩
      · exact ⟨.pass (hatom "?" (by decide)) (fun _ => hnext rfl) hbehind, nofun⟩
  | question his hplain _ ih => exact ⟨.plain his hplain (ih hmore hs').1, nofun⟩
  | numbered his hnumber _ ih => exact ⟨.numbered his hnumber (ih hmore hs').1, nofun⟩
  | group his _ hclose _ ihinside ih =>
      have hbehind := questions_of_words hclose (hwords (by decide)) (ih hmore hs').1
      have hinside := (ihinside hbehind (.inr (not_at_parenthesis hclose.at (by decide)))).1
      rw [List.append_assoc]
      exact ⟨questions_of_words (.cons his (.nil _)) (hwords (by decide)) hinside, nofun⟩
  | call his hopen _ hclose _ ihinside ih =>
      have hbehind := questions_of_words hclose (hwords (by decide)) (ih hmore hs').1
      have hinside := (ihinside hbehind (.inr (not_at_parenthesis hclose.at (by decide)))).1
      rw [List.append_assoc]
      exact ⟨questions_of_words (.cons his hopen) (hwords (by decide)) hinside, nofun⟩
  | last _ ih => exact ⟨(ih hmore hs').1, nofun⟩
  | more _ hcomma _ ihfirst ih =>
      have hbehind := questions_of_words hcomma (hwords (by decide)) (ih hmore hs').1
      rw [List.append_assoc]
      exact ⟨(ihfirst hbehind (.inr (not_at_parenthesis hcomma.at (by decide)))).1, nofun⟩
  | nothing => exact ⟨hmore, fun _ => hs'⟩
  | operator htakes _ ih =>
      obtain ⟨sign, signs, hsigns, hmem⟩ := exists_signs_of_peekOperator? (htakes 0 true)
      have hno : ∀ word ∈ operatorSigns, Text.sameWord word "(" = false := by decide
      exact ⟨questions_of_words hsigns
          (fun word hword => hplain word (List.mem_append_right _ (hmem word hword)))
          (ih hmore hs').1,
        fun _ => .inr (not_at_parenthesis (hsigns.at_of_mem (.head _))
          (List.forall_mem_singleton.mpr (hno sign (hmem sign (.head _)))))⟩
  | form hform _ ih =>
      exact ⟨questions_of_form hform (ih hmore hs').1,
        fun _ => .inr (not_at_parenthesis hform.at (by decide))⟩

end Derived

end Parse

/-! ## Values in place of parameters -/

namespace Expr

mutual

/-- The values, from left to right, each in place of a parameter; and the values that are left. -/
def fill : Expr → List Value → Expr × List Value
  | literal v, values => (literal v, values)
  | parameter index, [] => (parameter index, [])
  | parameter _, v :: values => (literal v, values)
  | column name, values => (column name, values)
  | unary op e, values => (fill e values).map (unary op) id
  | binary op l r, values => (fill r (fill l values).2).map (binary op (fill l values).1) id
  | call function arguments, values => (fillAll arguments values).map (call function) id
  | membership e list negated, values => (fill e values).map (membership · list negated) id

/-- The values in place of the parameters of each expression. -/
def fillAll : List Expr → List Value → List Expr × List Value
  | [], values => ([], values)
  | e :: rest, values => (fillAll rest (fill e values).2).map ((fill e values).1 :: ·) id

end

variable (b : Bindings)

mutual

/-- Binding puts the values of the parameters there, from left to right. -/
theorem fill_parameters : ∀ (e : Expr) (more : List Value),
    e.fill (e.parameters.map b.valueAt ++ more) = (e.bind b, more)
  | literal _, _ => rfl
  | parameter _, _ => rfl
  | column _, _ => rfl
  | unary _ e, more => by
      rw [parameters, fill, fill_parameters e more]
      rfl
  | binary _ l r, more => by
      rw [parameters, fill, List.map_append, List.append_assoc, fill_parameters l,
        fill_parameters r]
      rfl
  | call _ arguments, more => by
      rw [parameters, fill, fillAll_parameters arguments more]
      rfl
  | membership e _ _, more => by
      rw [parameters, fill, fill_parameters e more]
      rfl

theorem fillAll_parameters : ∀ (es : List Expr) (more : List Value),
    fillAll es ((parametersAll es).map b.valueAt ++ more) = (bindAll b es, more)
  | [], _ => rfl
  | e :: rest, more => by
      rw [parametersAll, fillAll, List.map_append, List.append_assoc, fill_parameters e,
        fillAll_parameters rest]
      rfl

end

end Expr

/-! ## Expressions one after the other -/

/-- An expression that was read: its tokens start at the one stream and stop at the other. -/
structure Reading where
  start : TokenStream
  tree : Expr
  stop : TokenStream

/-- A parser reads expressions one after the other, up to the first form or not, or only an operand;
and it takes other tokens between them. -/
inductive Parser.Reads : Parser → List Reading → Parser → Prop where
  | nothing (p : Parser) : Reads p [] p
  | passes {p q : Parser} {s : TokenStream} {readings : List Reading} :
      p.ahead.LeadsTo s → Reads { p with ahead := s } readings q → Reads p readings q
  | expression {p r q : Parser} {e : Expr} {readings : List Reading} :
      Parse.expression p = .ok e r → Reads r readings q →
      Reads p (⟨p.ahead, e, r.ahead⟩ :: readings) q
  | constantExpression {p r q : Parser} {e : Expr} {readings : List Reading} :
      Parse.constantExpression p = .ok e r → Reads r readings q →
      Reads p (⟨p.ahead, e, r.ahead⟩ :: readings) q
  | operand {p r q : Parser} {e : Expr} {readings : List Reading} :
      Parse.operand p = .ok e r → Reads r readings q →
      Reads p (⟨p.ahead, e, r.ahead⟩ :: readings) q

namespace Parse

open Step TokenStream

/-- A whole part of an expression is derived from the tokens ahead, with the forms on or off, but one
of its question marks asks for an index that does not fit. -/
def AsksTooFar (part : Part) (p : Parser) (on : Bool) : Prop :=
  ∃ marks s', Spans false on part p.ahead marks s' ∧ StopsAt on s' ∧
    ∃ index ∈ askedFrom p.cursor marks, UInt64.size ≤ index + 1

section Readings

variable {p q r : Parser} {e : Expr} {readings : List Reading}

theorem exists_questions_of_operand (h : operand p = .ok e q) :
    ∃ marks, Questions q.ahead p.ahead marks ∧ AsksFor [] e.parameters p.cursor marks q.cursor := by
  obtain ⟨marks, htraces⟩ := traced_operand h
  have hquestions := (questions_of_spans (htraces.derives .nothing) .stop (.inl rfl)).1
  rw [List.append_nil, List.append_nil] at hquestions
  exact ⟨marks, hquestions, htraces.asks⟩

theorem exists_questions_of_expression (h : expression p = .ok e q) :
    ∃ marks, Questions q.ahead p.ahead marks ∧ AsksFor [] e.parameters p.cursor marks q.cursor := by
  obtain ⟨marks, htraces⟩ := tracedWhole_expression h
  have hquestions := (questions_of_spans htraces.derives .stop (.inl rfl)).1
  rw [List.append_nil] at hquestions
  exact ⟨marks, hquestions, htraces.asks⟩

theorem exists_questions_of_constantExpression (h : constantExpression p = .ok e q) :
    ∃ marks, Questions q.ahead p.ahead marks ∧ AsksFor [] e.parameters p.cursor marks q.cursor := by
  obtain ⟨r, hread, rfl⟩ := withSuffixes_eq_ok h
  have hquestions := exists_questions_of_expression hread
  exact hquestions

/-- The question marks of the readings, each reading with its own, take the cursor on and ask for the
places of the trees. -/
def FollowsCursor (cursor : Nat) (readings : List Reading) (cursor' : Nat) : Prop :=
  ∃ marks : List (List (Option Nat)),
    List.Forall₂ (fun reading => Questions reading.stop reading.start) readings marks ∧
    AsksFor [] (Expr.parametersAll (readings.map Reading.tree)) cursor marks.flatten cursor'

theorem FollowsCursor.cons {reading : Reading} {cursor between cursor' : Nat}
    (h : ∃ marks, Questions reading.stop reading.start marks ∧
      AsksFor [] reading.tree.parameters cursor marks between)
    (hmore : FollowsCursor between readings cursor') :
    FollowsCursor cursor (reading :: readings) cursor' := by
  obtain ⟨first, hfirst, hasks⟩ := h
  obtain ⟨more, hmore, hasks'⟩ := hmore
  have hafter := hasks'.within reading.tree.parameters
  rw [List.append_nil] at hafter
  exact ⟨first :: more, .cons hfirst hmore, hasks.trans hafter⟩

/-- Reading on goes on with the cursor. -/
theorem followsCursor_of_reads (h : p.Reads readings q) :
    FollowsCursor p.cursor readings q.cursor := by
  induction h with
  | nothing p => exact ⟨[], .nil, asksFor_nothing rfl⟩
  | passes _ _ ih => exact ih
  | expression hread _ ih => exact .cons (exists_questions_of_expression hread) ih
  | constantExpression hread _ ih =>
      exact .cons (exists_questions_of_constantExpression hread) ih
  | operand hread _ ih => exact .cons (exists_questions_of_operand hread) ih

theorem expression_of_asksTooFar (h : AsksTooFar .operand p p.suffixes) :
    ∃ problem n q, expression p = .error (.parse problem n) q := by
  obtain ⟨marks, s', hspans, hstops, index, hmem, hfar⟩ := h
  rcases expression_of_spans hspans hstops with
    ⟨e, q, -, -, hasks⟩ | ⟨n, q, hfault | hfault⟩
  · exact absurd (hasks.inRange index hmem) (Nat.not_lt_of_le hfar)
  · exact ⟨_, n, q, hfault⟩
  · exact ⟨_, n, q, hfault⟩

theorem constantExpression_of_asksTooFar (h : AsksTooFar .operand p false) :
    ∃ problem n q, constantExpression p = .error (.parse problem n) q := by
  obtain ⟨problem, n, q, hfault⟩ := expression_of_asksTooFar (p := { p with suffixes := false }) h
  refine ⟨problem, n, { q with suffixes := p.suffixes }, ?_⟩
  rw [constantExpression, withSuffixes, hfault]

/-- An operand is not read, or the question mark that asks too far stands behind it. -/
theorem operand_of_asksTooFar (h : AsksTooFar .operand p p.suffixes) :
    (∃ problem n q, operand p = .error (.parse problem n) q) ∨
      ∃ e q, operand p = .ok e q ∧ AsksTooFar .behind q p.suffixes := by
  obtain ⟨marks, s', hspans, hstops, index, hmem, hfar⟩ := h
  rcases operand_of_spans hspans hstops with
    ⟨e, q, first, more, hread, rfl, hasks, hmore⟩ | ⟨n, q, hfault | hfault⟩
  · refine .inr ⟨e, q, hread, more, s', hmore, hstops, index, ?_, hfar⟩
    rw [askedFrom_append, ← hasks.moved] at hmem
    exact (List.mem_append.mp hmem).resolve_left fun hfirst =>
      absurd (hasks.inRange index hfirst) (Nat.not_lt_of_le hfar)
  · exact .inl ⟨_, n, q, hfault⟩
  · exact .inl ⟨_, n, q, hfault⟩

/-- The places of all the expressions that a parser reads from a text are the question marks of the
text outside the lists of membership tests, each once and in this order. They get the values that a
cursor comes to which starts at zero: a question mark with a number moves it there first, and each
one moves it on by one. An index that nothing is bound to gets null, and a list of parameters binds
its places. No index is beyond 64 bits: where one would be, there is a parse fault, unless only an
operand before that question mark is read. -/
theorem fillAll_of_reads {text : String} (h : (Parser.ofText text).Reads readings q) :
    (∃ marks : List (List (Option Nat)),
      List.Forall₂ (fun reading => Questions reading.stop reading.start) readings marks ∧
      (∀ others, List.Forall₂ (fun reading => Questions reading.stop reading.start) readings others →
        others = marks) ∧
      (∀ b : Bindings, ∃ values, List.Forall₂ b.Gives (askedFrom 0 marks.flatten) values ∧
        (∀ others, List.Forall₂ b.Gives (askedFrom 0 marks.flatten) others → others = values) ∧
        Expr.fillAll (readings.map Reading.tree) values
          = (Expr.bindAll b (readings.map Reading.tree), [])) ∧
      (∀ params : List Value,
        Expr.fillAll (readings.map Reading.tree)
            ((askedFrom 0 marks.flatten).map fun index => params.getD index .null)
          = (Expr.bindAll (.ofList params) (readings.map Reading.tree), [])) ∧
      q.cursor = cursorBehind 0 marks.flatten ∧
      ∀ index ∈ askedFrom 0 marks.flatten, index + 1 < UInt64.size) ∧
    (AsksTooFar .operand q q.suffixes →
      (∃ problem n r, expression q = .error (.parse problem n) r) ∧
      ((∃ problem n r, operand q = .error (.parse problem n) r) ∨
        ∃ e r, operand q = .ok e r ∧ AsksTooFar .behind r q.suffixes)) ∧
    (AsksTooFar .operand q false →
      ∃ problem n r, constantExpression q = .error (.parse problem n) r) := by
  refine ⟨?_, fun hfar => ⟨expression_of_asksTooFar hfar, operand_of_asksTooFar hfar⟩,
    constantExpression_of_asksTooFar⟩
  obtain ⟨marks, hmarks, hasks⟩ := followsCursor_of_reads h
  have hplaces : Expr.parametersAll (readings.map Reading.tree) = askedFrom 0 marks.flatten :=
    hasks.places
  have hfilled (b : Bindings) : Expr.fillAll (readings.map Reading.tree)
      ((askedFrom 0 marks.flatten).map b.valueAt)
        = (Expr.bindAll b (readings.map Reading.tree), []) := by
    rw [← hplaces, ← Expr.fillAll_parameters b (readings.map Reading.tree) [], List.append_nil]
  refine ⟨marks, hmarks, fun others hothers => ?_,
    fun b => ⟨_, b.forall₂_gives_iff.mpr rfl, fun others => b.forall₂_gives_iff.mp, hfilled b⟩,
    fun params => ?_, hasks.moved, hasks.inRange⟩
  · have hunique : Relator.RightUnique fun (reading : Reading) marks =>
        Questions reading.stop reading.start marks := fun _ _ _ => Questions.unique
    exact List.right_unique_forall₂' hunique hothers hmarks
  · simp only [← Bindings.valueAt_ofList]
    exact hfilled (.ofList params)

/-- Three parameters and three places: the first takes the last parameter, the second goes on behind
it, where nothing is bound, and the third goes back. The question mark in the list is no place. And
the last index of 64 bits is too far. -/
theorem fillAll_of_reads_three :
    (∃ readings q, (Parser.ofText "?2 IN (?), ?, ?1").Reads readings q ∧
      List.Forall₂ (fun reading => Questions reading.stop reading.start) readings
        [[some 2], [none], [some 1]] ∧
      askedFrom 0 [some 2, none, some 1] = [2, 3, 1] ∧ q.cursor = 2 ∧
      readings.map Reading.tree
        = [.membership (.parameter 2) "?" false, .parameter 3, .parameter 1] ∧
      Expr.bindAll (.ofList [.integer 10, .integer 20, .integer 30]) (readings.map Reading.tree)
        = [.membership (.literal (.integer 30)) "?" false, .literal .null,
            .literal (.integer 20)]) ∧
    ∃ problem n r, expression (.ofText "?18446744073709551615") = .error (.parse problem n) r := by
  have hask (n : Nat) : (⟨.symbol, "?", n⟩ : Token).is "?" = true :=
    show Text.sameWord "?" "?" = true by decide
  constructor
  · let third : TokenStream := .token ⟨.symbol, "?", 14⟩ (.token ⟨.number, "1", 15⟩ (.done 16))
    let afterSecond : TokenStream := .token ⟨.symbol, ",", 12⟩ third
    let second : TokenStream := .token ⟨.symbol, "?", 11⟩ afterSecond
    let afterFirst : TokenStream := .token ⟨.symbol, ",", 9⟩ second
    let list : TokenStream := .token ⟨.symbol, "?", 7⟩ (.token ⟨.symbol, ")", 8⟩ afterFirst)
    let test : TokenStream := .token ⟨.word, "IN", 3⟩ (.token ⟨.symbol, "(", 6⟩ list)
    have htokens : Parser.ofText "?2 IN (?), ?, ?1"
        = ⟨.token ⟨.symbol, "?", 0⟩ (.token ⟨.number, "2", 1⟩ test), 0, true⟩ := by
      decide +kernel
    have hfirst : expression (.ofText "?2 IN (?), ?, ?1")
        = .ok (.membership (.parameter 2) "?" false) ⟨afterFirst, 3, true⟩ := by
      rw [htokens]
      rfl
    have hsecond : expression ⟨second, 3, true⟩ = .ok (.parameter 3) ⟨afterSecond, 4, true⟩ := rfl
    have hthird : expression ⟨third, 4, true⟩ = .ok (.parameter 1) ⟨.done 16, 2, true⟩ := rfl
    have hreads := Parser.Reads.expression hfirst (.passes (.token _ (.refl _))
      (.expression hsecond (.passes (.token _ (.refl _)) (.expression hthird (.nothing _)))))
    have hinside : Questions afterFirst test [] :=
      .list (show Text.sameWord "IN" "IN" = true by decide)
        (.cons (show Text.sameWord "(" "(" = true by decide) (.nil _)) rfl .stop
    have htwo : IsNumberBehind ⟨.symbol, "?", 0⟩ ⟨.number, "2", 1⟩ := ⟨rfl, rfl⟩
    have hone : IsNumberBehind ⟨.symbol, "?", 14⟩ ⟨.number, "1", 15⟩ := ⟨rfl, rfl⟩
    have hfirstMarks : Questions afterFirst (Parser.ofText "?2 IN (?), ?, ?1").ahead [some 2] := by
      rw [htokens]
      exact .numbered (hask 0) htwo hinside
    have hsecondMarks : Questions afterSecond second [none] := by
      refine .plain (hask 11) (fun number rest hnext hbehind => ?_) .stop
      obtain ⟨rfl, -⟩ := TokenStream.token.inj hnext
      cases hbehind.1
    have hthirdMarks : Questions (.done 16) third [some 1] :=
      .numbered (hask 14) hone .stop
    obtain ⟨⟨marks, hmarks, hunique, -, hparams, hcursor, -⟩, -⟩ := fillAll_of_reads hreads
    cases hunique _ (.cons hfirstMarks (.cons hsecondMarks (.cons hthirdMarks .nil)))
    have hbound := hparams [.integer 10, .integer 20, .integer 30]
    exact ⟨_, _, hreads, hmarks, rfl, hcursor, rfl, (congrArg Prod.fst hbound).symm⟩
  · have htokens : (Parser.ofText "?18446744073709551615").ahead = .token ⟨.symbol, "?", 0⟩
        (.token ⟨.number, "18446744073709551615", 1⟩ (.done 21)) := by
      decide +kernel
    have hspans : Spans false true .operand (Parser.ofText "?18446744073709551615").ahead
        [some (Binary64.digitsValue "18446744073709551615".toList)] (.done 21) := by
      rw [htokens]
      exact .numbered (hask 0) ⟨rfl, rfl⟩ .nothing
    have hstops : StopsAt true (.done 21) := by
      refine ⟨trivial, fun _ hat => ?_⟩
      obtain ⟨_, _, hnext, -⟩ := at_iff.mp hat
      cases hnext
    exact ((fillAll_of_reads (.nothing _)).2.1 ⟨_, _, hspans, hstops, _, .head _, by decide⟩).1

end Readings

end Parse

end OnePassSql

import OnePassSql.Proofs.Parser.Binding
import OnePassSql.Proofs.Parser.Derivations

/-!
The places for values in an expression are question marks of its text: in the same order, and
numbered by the tokens alone. So values cannot change how a text is read.
-/

namespace OnePassSql

open Step

/-! ## Places in texts -/

/-- From a cursor on, question marks among the tokens that lead from the one stream to the other ask
for these indices in turn, and leave the other cursor. -/
inductive TokenStream.Asks : Nat → TokenStream → List Nat → Nat → TokenStream → Prop where
  | nothing (cursor s) : Asks cursor s [] cursor s
  /-- A token that asks for nothing. A question mark in the list of a membership test is one. -/
  | pass (first) {cursor rest indices cursor' t} :
      Asks cursor rest indices cursor' t → Asks cursor (.token first rest) indices cursor' t
  /-- A question mark without a number asks for the index at the cursor. -/
  | next {question cursor rest indices cursor' t} : question.is "?" = true →
      (∀ number behind, rest = .token number behind → ¬Parse.IsNumberBehind question number) →
      Asks (cursor + 1) rest indices cursor' t →
      Asks cursor (.token question rest) (cursor :: indices) cursor' t
  /-- A question mark with a number asks for that index. -/
  | numbered {question number cursor index rest indices cursor' t} : question.is "?" = true →
      Parse.IsNumberBehind question number → Parse.parameterIndex? number.text = some index →
      Asks (index + 1) rest indices cursor' t →
      Asks cursor (.token question (.token number rest)) (index :: indices) cursor' t

namespace TokenStream

theorem Asks.trans {c d e : Nat} {s t u : TokenStream} {before behind : List Nat}
    (hst : Asks c s before d t) (htu : Asks d t behind e u) : Asks c s (before ++ behind) e u := by
  induction hst with
  | nothing => exact htu
  | pass first _ ih => exact .pass first (ih htu)
  | next hquestion hplain _ ih => exact .next hquestion hplain (ih htu)
  | numbered hquestion hnumber hindex _ ih => exact .numbered hquestion hnumber hindex (ih htu)

theorem LeadsTo.asks {cursor cursor' : Nat} {indices : List Nat} {s t u : TokenStream}
    (h : s.LeadsTo t) (hasks : Asks cursor t indices cursor' u) :
    Asks cursor s indices cursor' u := by
  induction h with
  | refl s => exact hasks
  | token first _ ih => exact .pass first (ih hasks)

/-- From whatever cursor, if the indices fit, the tokens between the streams ask for what the
question marks ask for. -/
def Asked (s : TokenStream) (marks : List (Option Nat)) (s' : TokenStream) : Prop :=
  ∀ cursor, (∀ index ∈ askedFrom cursor marks, index < UInt64.size) →
    Asks cursor s (askedFrom cursor marks) (cursorBehind cursor marks) s'

section Asked

variable {s t u : TokenStream} {first more marks : List (Option Nat)}

theorem Asked.append (hst : Asked s first t) (htu : Asked t more u) : Asked s (first ++ more) u := by
  intro cursor hrange
  rw [askedFrom_append] at hrange
  rw [askedFrom_append, cursorBehind_append]
  exact (hst cursor fun index hindex => hrange index (List.mem_append_left _ hindex)).trans
    (htu _ fun index hindex => hrange index (List.mem_append_right _ hindex))

theorem Asked.behind (h : Asked t marks u) (hleads : s.LeadsTo t) : Asked s marks u :=
  fun cursor hrange => hleads.asks (h cursor hrange)

/-- The tokens of a part of an expression ask for what its question marks ask for. -/
theorem asked_of_spans {calls i : Bool} {part : Part} (h : Spans calls i part s marks t) :
    Asked s marks t := by
  induction h with
  | sign _ _ ih => exact ih.behind (.token _ (.refl _))
  | atom _ _ ih => exact ih.behind (.token _ (.refl _))
  | question ht hplain _ ih =>
      exact fun cursor hrange => .next ht hplain (ih _ (List.forall_mem_cons.mp hrange).2)
  | numbered ht hnumber _ ih =>
      intro cursor hrange
      obtain ⟨hlt, hrange⟩ := List.forall_mem_cons.mp hrange
      exact .numbered ht hnumber (Parse.parameterIndex?_eq_some.mpr ⟨rfl, hlt⟩) (ih _ hrange)
  | group _ _ hclose _ ihinside ihmore =>
      exact (ihinside.append (ihmore.behind hclose.leadsTo)).behind (.token _ (.refl _))
  | call _ hopen _ hclose _ ihinside ihmore =>
      exact (ihinside.append (ihmore.behind hclose.leadsTo)).behind (.token _ hopen.leadsTo)
  | last _ ih => exact ih
  | more _ hword _ ihfirst ihmore => exact ihfirst.append (ihmore.behind hword.leadsTo)
  | nothing => exact fun cursor _ => .nothing cursor _
  | operator htakes _ ih =>
      exact ih.behind ((Parse.peekOperator?_eq_ok (htakes 0 true)).2 _ _ rfl).1
  | form hform _ ih => exact ih.behind hform.leadsTo

end Asked

end TokenStream

/-- Between the two states of the parser the tokens taken ask for the indices. -/
def Parser.Asks (p : Parser) (indices : List Nat) (q : Parser) : Prop :=
  TokenStream.Asks p.cursor p.ahead indices q.cursor q.ahead

namespace Parse

open TokenStream

/-- The places of an expression are question marks of its text. -/
theorem asks_of_expression {p q : Parser} {e : Expr} (h : expression p = .ok e q) :
    p.Asks e.parameters q := by
  obtain ⟨marks, htraces⟩ := tracedWhole_expression h
  rw [Parser.Asks, htraces.asks.places, htraces.asks.moved]
  exact asked_of_spans htraces.derives _ fun index hindex =>
    Nat.lt_of_succ_lt (htraces.asks.inRange index hindex)

-- the question mark in the list of the membership test has no place and moves no cursor
example : (expression.run' (.ofText "? + ?7 IN (?) AND COALESCE('?', ?)")).map Expr.parameters
    = some [0, 7, 8] := by
  decide +kernel

/-! ## Values and how a text is read -/

/-- A text is read the same for all values. For each state of the parser there is one tree with
places for values, of which the text's question marks are the only ones, and one state behind it; or
there is one fault. That holds with the values put in on the way as it does with them put in at the
end. -/
theorem boundExpression_for_all_bindings (p : Parser) :
    (∃ (e : Expr) (q : Parser), p.Asks e.parameters q ∧
        ∀ b, boundOnTheWay b p = .ok (e.bind b) q ∧ boundExpression b p = .ok (e.bind b) q) ∨
      ∃ fault q,
        ∀ b, boundOnTheWay b p = .error fault q ∧ boundExpression b p = .error fault q := by
  cases hread : expression p with
  | ok e q =>
      refine .inl ⟨e, q, asks_of_expression hread, fun b => ?_⟩
      rw [← boundExpression_eq_onTheWay, and_self, boundExpression, bind_apply_ok hread]
      rfl
  | error fault q =>
      refine .inr ⟨fault, q, fun b => ?_⟩
      rw [← boundExpression_eq_onTheWay, and_self]
      exact bind_eq_error.mpr (.inl hread)

end Parse

end OnePassSql

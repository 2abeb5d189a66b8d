import OnePassSql.Proofs.Faults.Expression
import OnePassSql.Statement.Select

/-!
What the clauses of statements can fault with: nothing but what can be wrong with reading. The
expressions that they give stand in the text.
-/

namespace OnePassSql

open Step

/-- Somewhere in the text the expression is read, with the bound values in it. -/
def TokenStream.Says (s : TokenStream) (b : Bindings) (e : Expr) : Prop :=
  ∃ p q : Parser, p.Within s ∧ Parse.boundExpression b p = .ok e q

/-- The expression stands in the text, and its calls are known. -/
def TokenStream.Gives (s : TokenStream) (b : Bindings) (e : Expr) : Prop :=
  e.CallsKnown ∧ s.Says b e

namespace Parse

variable {s : TokenStream} {b : Bindings}

/-! ## Clauses that several statements share -/

theorem readsIn_boundExpression : ReadsIn s (s.Gives b) (boundExpression b) := by
  intro p hp
  have hends : EndsAt (Parser.Within s) s.ReadingFault Expr.CallsKnown (boundExpression b) p :=
    (readsIn_expression.bind fun e he => ends_pure (Expr.callsKnown_bind b e he)) p hp
  cases hrun : boundExpression b p with
  | ok e q => exact endsAt_of_ok hrun (hends.ok hrun).1 ⟨(hends.ok hrun).2, p, q, hp, hrun⟩
  | error fault q => exact endsAt_of_error hrun (hends.error hrun)

theorem readsIn_optionalExpression (keyword : String) :
    ReadsIn s (fun found => ∀ e, found = some e → s.Gives b e) (optionalExpression keyword b) := by
  refine (readsIn_accept keyword).bind fun more _ => ?_
  cases more with
  | false => exact ends_pure nofun
  | true =>
      refine readsIn_boundExpression.bind fun e he => ends_pure fun e' h => ?_
      exact Option.some.inj h ▸ he

theorem readsIn_ifExists (negated : Bool) : ReadsIn s (fun _ => True) (ifExists negated) := by
  refine (readsIn_accept "IF").bind fun more _ => ?_
  cases more with
  | false => exact ends_pure trivial
  | true =>
      have hexists : ReadsIn s (fun _ => True) (do expect "EXISTS"; return true) :=
        (readsIn_expect "EXISTS").bind fun _ _ => ends_pure trivial
      cases negated with
      | false => exact hexists
      | true => exact (readsIn_expect "NOT").bind fun _ _ => hexists

theorem readsIn_plainWord (words : List String) :
    ReadsIn s (fun _ => True) (expectOne (plainWords words)) :=
  (readsIn_expectOne _).forget

theorem readsIn_orAction : ReadsIn s (fun _ => True) orAction := by
  refine (readsIn_accept "OR").bind fun more _ => ?_
  cases more with
  | false => exact ends_pure trivial
  | true => exact readsIn_plainWord conflictActions

theorem readsIn_conflictClause : ReadsIn s (fun _ => True) conflictClause := by
  refine (readsIn_accept "ON").bind fun more _ => ?_
  cases more with
  | false => exact ends_pure trivial
  | true => exact (readsIn_expect "CONFLICT").bind fun _ _ => readsIn_plainWord conflictActions

theorem readsIn_direction : ReadsIn s (fun _ => True) direction :=
  (readsIn_acceptOne? _).bind fun _ _ => ends_pure trivial

theorem readsIn_indexedColumn : ReadsIn s (fun _ => True) indexedColumn := by
  refine readsIn_expectName.bind fun name _ => (readsIn_accept "COLLATE").bind fun more _ => ?_
  have hbehind : ReadsIn s (fun _ => True) (do direction; return name) :=
    readsIn_direction.bind fun _ _ => ends_pure trivial
  cases more with
  | false => exact hbehind
  | true => exact (readsIn_plainWord _).bind fun _ _ => hbehind

theorem readsIn_indexedColumns : ReadsIn s (fun _ => True) indexedColumns := by
  refine (readsIn_expect "(").bind fun _ _ => ?_
  refine (readsIn_commaSeparated (fun _ => readsIn_indexedColumn) readsIn_indexedColumn).bind
    fun names _ => ?_
  exact (readsIn_expect ")").bind fun _ _ => ends_pure trivial

theorem leadsTo_skipStatement (u : TokenStream) : u.LeadsTo (skipStatement.go u) := by
  induction u with
  | token first rest ih =>
      rw [skipStatement.go]
      split
      · exact .refl _
      · exact .token first ih
  | done n => exact .refl _
  | fault ch n => exact .refl _

theorem readsIn_skipStatement : ReadsIn s (fun _ => True) skipStatement :=
  Ends.bind (ends_modify fun _ hp => TokenStream.LeadsTo.trans hp (leadsTo_skipStatement _))
    fun _ _ => readsIn_peek.bind fun _ _ => ends_pure trivial

end Parse

namespace Select

open Parse

variable {s : TokenStream} {b : Bindings}

/-! ## Clauses of SELECT -/

theorem readsIn_compound? :
    ReadsIn s (fun found => ∀ compound, found = some compound →
      ∃ t ∈ s.toList, meaning? [("UNION", Compound.union), ("INTERSECT", .intersect),
        ("EXCEPT", .except)] t = some compound) compound? := by
  refine (readsIn_acceptOne? _).bind fun found hfound => ?_
  split
  · exact (readsIn_accept "ALL").bind fun _ _ => ends_pure hfound
  · exact ends_pure hfound

theorem readsIn_resultColumns :
    ReadsIn s (fun found => ∀ es, found = some es → ∀ e ∈ es, s.Gives b e) (resultColumns b) := by
  refine (readsIn_accept "*").bind fun star _ => ?_
  cases star with
  | true => exact ends_pure nofun
  | false =>
      refine (readsIn_commaSeparated (fun _ => readsIn_boundExpression.forget)
        readsIn_boundExpression).bind fun es hes => ends_pure fun es' h => ?_
      exact Option.some.inj h ▸ hes

theorem readsIn_grouping : ReadsIn s (fun _ => True) grouping := by
  refine (readsIn_accept "GROUP").bind fun more _ => ?_
  cases more with
  | false => exact ends_pure trivial
  | true =>
      refine (readsIn_expect "BY").bind fun _ _ => ?_
      refine (readsIn_commaSeparated (fun _ => readsIn_expression.forget)
        readsIn_expression).bind fun _ _ => (readsIn_accept "HAVING").bind fun more _ => ?_
      cases more with
      | false => exact ends_pure trivial
      | true => exact readsIn_expression.bind fun _ _ => ends_pure trivial

theorem readsIn_orderingTerm : ReadsIn s (fun _ => True) orderingTerm :=
  readsIn_expression.bind fun _ _ => readsIn_direction

theorem readsIn_ordering : ReadsIn s (fun _ => True) ordering := by
  refine (readsIn_accept "ORDER").bind fun more _ => ?_
  cases more with
  | false => exact ends_pure trivial
  | true =>
      refine (readsIn_expect "BY").bind fun _ _ => ?_
      exact (readsIn_commaSeparated (fun _ => readsIn_orderingTerm) readsIn_orderingTerm).bind
        fun _ _ => ends_pure trivial

theorem readsIn_limit : ReadsIn s (fun _ => True) limit := by
  refine (readsIn_accept "LIMIT").bind fun more _ => ?_
  cases more with
  | false => exact ends_pure trivial
  | true =>
      refine readsIn_expectNumber.bind fun _ _ => (readsIn_acceptOne? _).bind fun found _ => ?_
      cases found with
      | none => exact ends_pure trivial
      | some _ => exact readsIn_expectNumber.bind fun _ _ => ends_pure trivial

theorem readsIn_joinStart? :
    ReadsIn s (fun found => ∀ word, found = some word →
      word ∈ "," :: joinWords ∧ ∃ t ∈ s.toList, t.is word = true) joinStart? := by
  refine (readsIn_acceptOne? _).mono (fun _ h => h) fun found hfound word hword => ?_
  obtain ⟨t, ht, hmeaning⟩ := hfound word hword
  obtain ⟨word', hoption, hreads⟩ := exists_of_meaning? hmeaning
  obtain ⟨w, hw, heq⟩ := List.mem_map.mp hoption
  cases heq
  exact ⟨hw, t, ht, hreads⟩

theorem readsIn_joinCondition : ReadsIn s (fun _ => True) joinCondition := by
  refine (readsIn_accept "ON").bind fun on _ => ?_
  cases on with
  | true => exact readsIn_expression.bind fun _ _ => ends_pure trivial
  | false =>
      refine (readsIn_accept "USING").bind fun more _ => ?_
      cases more with
      | false => exact ends_pure trivial
      | true => exact readsIn_indexedColumns.bind fun _ _ => ends_pure trivial

end Select

end OnePassSql

import OnePassSql.Proofs.Faults.Session
import OnePassSql.Proofs.Statement.Budget

/-!
What a SELECT can fault with. Its step budget is enough, and what it finds missing from the library
its text asks for.
-/

namespace OnePassSql.Select

open Step Parse Statement

variable {ρ : Type} [Record ρ] {s : TokenStream} {b : Bindings} {budget : Nat}

/-! ## Results -/

theorem staysIn_extract (t : Table) {columns : Option (List Expr)} {predicate : Option Expr}
    (hcolumns : ∀ es, columns = some es → ∀ e ∈ es, s.Gives b e)
    (hpredicate : ∀ e, predicate = some e → s.Gives b e) :
    StaysIn s b (fun _ => True) (extract t columns predicate : Statement ρ Table) := by
  refine ends_get.bind fun session _ => ends_settle ?_ fun _ _ => trivial
  refine (Table.raises_extract (fun es hes e he => (hcolumns es hes e he).1)
    fun e he => (hpredicate e he).1).mono fun fault h => ?_
  cases h with
  | semantic h => exact .semantic h
  | coercion h => exact .coercion h
  | predicate he h => exact .unsupported (.membership (hpredicate _ he).2 (.row _ t _) h)
  | column hes he h => exact .unsupported (.membership (hcolumns _ hes _ he).2 (.row _ t _) h)
  | callType hes he h => exact .unsupported (.callType (hcolumns _ hes _ he).2 (.heading t) h)

theorem staysIn_unite (t other : Table) :
    StaysIn s b (fun _ => True) (unite t other : Statement ρ Table) := by
  intro session hsession
  have hunion := Edit.writes_union other ⟨t, session.records⟩ trivial
  unfold EndsAt unite
  cases hrun : Edit.union other ⟨t, session.records⟩ with
  | ok _ sheet => exact ⟨hsession, trivial⟩
  | error fault sheet => exact .coercion (hunion.error hrun)

/-- The compound that led to a core is one that the text has a word for. -/
def Worded (s : TokenStream) (left : Option (Table × Compound)) : Prop :=
  ∀ t compound, left = some (t, compound) → ∃ word ∈ s.toList,
    meaning? [("UNION", Compound.union), ("INTERSECT", .intersect), ("EXCEPT", .except)] word
      = some compound

theorem worded_none : Worded s none := nofun

theorem staysIn_combine (core : Table) {left : Option (Table × Compound)} (h : Worded s left) :
    StaysIn s b (fun _ => True) (combine core left : Statement ρ Table) := by
  cases left with
  | none => exact ends_pure trivial
  | some left =>
      obtain ⟨t, compound⟩ := left
      obtain ⟨word, hword, hmeaning⟩ := h t compound rfl
      obtain ⟨text, hmem, hreads⟩ := exists_of_meaning? hmeaning
      cases compound with
      | union => exact staysIn_unite core t
      | intersect =>
          have htext : text = "INTERSECT" := by simpa using hmem
          exact ends_throw (.unsupported (.intersect hword (htext ▸ hreads)))
      | except =>
          have htext : text = "EXCEPT" := by simpa using hmem
          exact ends_throw (.unsupported (.except hword (htext ▸ hreads)))

/-! ## The loops -/

/-- On the budget, wherever it is at least twice the tokens left and `extra`, the loop stays in the
text. -/
def StaysOnBudget (s : TokenStream) (b : Bindings) (loop : Nat → Statement ρ Table)
    (extra budget : Nat) : Prop :=
  ∀ t : Session ρ, t.Within s b → 2 * t.tokens + extra ≤ budget →
    EndsAt (Session.Within s b) (s.StatementFault b) (fun _ => True) (loop budget) t

section

variable (hselect : ∀ left, Worded s left → StaysOnBudget (ρ := ρ) s b (selectWithin · left) 2 budget)
  (hcore : StaysOnBudget (ρ := ρ) s b coreWithin 1 budget)
  (hjoined : StaysOnBudget (ρ := ρ) s b joinedWithin 2 budget)
  (hsource : StaysOnBudget (ρ := ρ) s b sourceWithin 1 budget)

omit [Record ρ] in
theorem staysIn_tail (result : Table) : StaysIn s b (fun _ => True) (do
    (ordering : Parse Unit); (limit : Parse Unit); return result : Statement ρ Table) :=
  (staysIn_of_readsIn readsIn_ordering).bind fun _ _ =>
    (staysIn_of_readsIn readsIn_limit).bind fun _ _ => ends_pure trivial

include hselect in
theorem endsAt_behindCore (result : Table) {t : Session ρ} (ht : t.Within s b)
    (hb : 2 * t.tokens ≤ budget) :
    EndsAt (Session.Within s b) (s.StatementFault b) (fun _ => True)
      (behindCore budget result) t := by
  refine endsAt_bind (staysIn_of_readsIn readsIn_compound? t ht) fun found t₁ h₁ ht₁ hfound => ?_
  have hle := tokens_le_of_parsing movesOn_compound? h₁
  cases found with
  | none => exact staysIn_tail result t₁ ht₁
  | some compound =>
      refine endsAt_bind (staysIn_of_readsIn (readsIn_expect "SELECT") t₁ ht₁)
        fun _ t₂ h₂ ht₂ _ => ?_
      have hlt := tokens_lt_of_expect h₂
      have hworded : Worded s (some (result, compound)) := by
        rintro _ _ ⟨⟩
        exact hfound compound rfl
      exact endsAt_bind (hselect _ hworded t₂ ht₂ (by omega)) fun result t₃ _ ht₃ _ =>
        staysIn_tail result t₃ ht₃

include hselect hcore in
theorem staysOnBudget_selectWithin_succ {left : Option (Table × Compound)}
    (hleft : Worded s left) : StaysOnBudget (ρ := ρ) s b (selectWithin · left) 2 (budget + 1) := by
  intro t ht hb
  dsimp only
  rw [selectWithin_succ]
  refine endsAt_bind (hcore t ht (by omega)) fun core t₁ h₁ ht₁ _ => ?_
  refine endsAt_bind (staysIn_combine core hleft t₁ ht₁) fun result t₂ h₂ ht₂ _ => ?_
  have hle₁ := ((reads_withinBudget budget).2.1.ok h₁).tokens_le
  have hle₂ := ((reads_combine core left).ok h₂).tokens_le
  exact endsAt_behindCore hselect result ht₂ (by omega)

include hjoined in
theorem staysOnBudget_coreWithin_succ :
    StaysOnBudget (ρ := ρ) s b coreWithin 1 (budget + 1) := by
  intro t ht hb
  refine endsAt_bind (staysIn_of_readsIn (readsIn_acceptOne? _).forget t ht)
    fun _ t₁ h₁ ht₁ _ => ?_
  refine endsAt_bind (staysIn_bindings t₁ ht₁) fun bound t₂ h₂ ht₂ hbound => ?_
  cases hbound
  refine endsAt_bind (staysIn_of_readsIn readsIn_resultColumns t₂ ht₂)
    fun columns t₃ h₃ ht₃ hcolumns => ?_
  refine endsAt_bind (staysIn_of_readsIn (readsIn_accept "FROM") t₃ ht₃)
    fun hasSource t₄ h₄ ht₄ _ => ?_
  have hrest : ∀ source : Table, StaysIn s b (fun _ => True) (do
      let predicate ← optionalExpression "WHERE" (← bindings)
      (grouping : Parse Unit)
      extract source columns predicate : Statement ρ Table) := by
    refine fun source => staysIn_bindings.bind fun bound hbound => ?_
    cases hbound
    exact (staysIn_of_readsIn (readsIn_optionalExpression "WHERE")).bind fun predicate hpredicate =>
      (staysIn_of_readsIn readsIn_grouping).bind fun _ _ =>
        staysIn_extract source hcolumns hpredicate
  cases hasSource with
  | true =>
      have hle₁ := tokens_le_of_parsing (movesOn_acceptOne? _) h₁
      have hle₂ := ((respects_bindings (R := Session.ReadsTo)).ok h₂).tokens_le
      have hle₃ := tokens_le_of_parsing (movesOn_resultColumns _) h₃
      have hlt := tokens_lt_of_accept h₄
      exact endsAt_bind (hjoined t₄ ht₄ (by omega)) fun source t₅ _ ht₅ _ => hrest source t₅ ht₅
  | false =>
      cases columns with
      | none => exact TokenStream.StatementFault.semantic .semantic
      | some columns => exact hrest .unit t₄ ht₄

include hsource in
theorem staysOnBudget_joinedWithin_succ :
    StaysOnBudget (ρ := ρ) s b joinedWithin 2 (budget + 1) := by
  intro t ht hb
  refine endsAt_bind (hsource t ht (by omega)) fun source t₁ h₁ ht₁ _ => ?_
  refine endsAt_bind (staysIn_of_readsIn readsIn_joinStart? t₁ ht₁)
    fun found t₂ h₂ ht₂ hfound => ?_
  cases found with
  | none => exact endsAt_pure ht₂ trivial
  | some word =>
      refine endsAt_bind (staysIn_of_readsIn (readsIn_skipWords _) t₂ ht₂) fun _ t₃ h₃ ht₃ _ => ?_
      have hle₁ := ((reads_withinBudget budget).2.2.2.ok h₁).tokens_le
      have hle₂ := tokens_le_of_parsing movesOn_joinStart? h₂
      have hle₃ := tokens_le_of_parsing (movesOn_skipWords _) h₃
      obtain ⟨hword, token, htoken, hreads⟩ := hfound word rfl
      exact endsAt_bind (hsource t₃ ht₃ (by omega)) fun _ t₄ _ ht₄ _ =>
        ((staysIn_of_readsIn readsIn_joinCondition).bind fun _ _ =>
          ends_throw (.unsupported (.join htoken hword hreads))) t₄ ht₄

include hselect hjoined in
theorem staysOnBudget_sourceWithin_succ :
    StaysOnBudget (ρ := ρ) s b sourceWithin 1 (budget + 1) := by
  intro t ht hb
  refine endsAt_bind (staysIn_of_readsIn (readsIn_accept "(") t ht) fun nested t₁ h₁ ht₁ _ => ?_
  have hrest : ∀ source : Table, StaysIn s b (fun _ => True) (do
      if ← accept "AS" then
        let _ ← expectToken
      return source : Statement ρ Table) := by
    refine fun source => (staysIn_of_readsIn (readsIn_accept "AS")).bind fun named _ => ?_
    cases named with
    | true => exact (staysIn_of_readsIn readsIn_expectToken).bind fun _ _ => ends_pure trivial
    | false => exact ends_pure trivial
  have hclose : ∀ inner : Table, StaysIn s b (fun _ => True) (do
      (expect ")" : Parse Unit)
      let source ← (pure inner : Statement ρ Table)
      if ← accept "AS" then
        let _ ← expectToken
      return source : Statement ρ Table) :=
    fun inner => (staysIn_of_readsIn (readsIn_expect ")")).bind fun _ _ => hrest inner
  cases nested with
  | true =>
      have hlt := tokens_lt_of_accept h₁
      refine endsAt_bind (staysIn_of_readsIn (readsIn_accept "SELECT") t₁ ht₁)
        fun isSelect t₂ h₂ ht₂ _ => ?_
      have hle := tokens_le_of_parsing (movesOn_accept _) h₂
      cases isSelect with
      | true =>
          exact endsAt_bind (hselect none worded_none t₂ ht₂ (by omega)) fun inner t₃ _ ht₃ _ =>
            hclose inner t₃ ht₃
      | false =>
          exact endsAt_bind (hjoined t₂ ht₂ (by omega)) fun inner t₃ _ ht₃ _ => hclose inner t₃ ht₃
  | false =>
      exact ((staysIn_of_readsIn readsIn_expectName).bind fun name _ =>
        (staysIn_table name).bind fun source _ => hrest source) t₁ ht₁

end

/-- With budgets that suffice, every loop stays in the text. -/
theorem staysOnBudget_withinBudget (s : TokenStream) (b : Bindings) (budget : Nat) :
    (∀ left, Worded s left → StaysOnBudget (ρ := ρ) s b (selectWithin · left) 2 budget) ∧
      StaysOnBudget (ρ := ρ) s b coreWithin 1 budget ∧
      StaysOnBudget (ρ := ρ) s b joinedWithin 2 budget ∧
      StaysOnBudget (ρ := ρ) s b sourceWithin 1 budget := by
  induction budget with
  | zero =>
      exact ⟨fun _ _ t _ hb => by omega, fun t _ hb => by omega, fun t _ hb => by omega,
        fun t _ hb => by omega⟩
  | succ budget ih =>
      obtain ⟨hselect, hcore, hjoined, hsource⟩ := ih
      exact ⟨fun _ => staysOnBudget_selectWithin_succ hselect hcore,
        staysOnBudget_coreWithin_succ hjoined, staysOnBudget_joinedWithin_succ hsource,
        staysOnBudget_sourceWithin_succ hselect hjoined⟩

theorem staysIn_select : StaysIn s b (fun _ => True) (select : Statement ρ Table) := by
  intro t ht
  rw [EndsAt, select, bind_apply_ok (tokensLeft_apply t)]
  exact (staysOnBudget_withinBudget s b _).1 none worded_none t ht (by unfold Session.tokens; omega)

end OnePassSql.Select

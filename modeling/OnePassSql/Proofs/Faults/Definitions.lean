import OnePassSql.Proofs.Alike.Definitions
import OnePassSql.Proofs.Faults.Clauses
import OnePassSql.Proofs.Faults.Tables

/-!
What the definitions of CREATE can fault with. A default is evaluated where it stands, so besides the
faults of reading there are those of its value, and a membership test that its evaluation comes to.
-/

namespace OnePassSql

open Step

namespace Parse

/-- An expression of a default, with the bound values in it. A plus sign may stand before it. -/
def defaultExpression (b : Bindings) : Parse Expr := do
  let _ ← accept "+"
  let e ← constantExpression
  return e.bind b

theorem defaultValue_eq_bind (b : Bindings) :
    defaultValue b = defaultExpression b >>= fun e => settle (e.eval .none) := by
  simp only [defaultValue, defaultExpression, bind_assoc, pure_bind]

end Parse

namespace TokenStream

/-- Somewhere behind a `DEFAULT` of the text the expression is read. -/
def Defaults (s : TokenStream) (b : Bindings) (e : Expr) : Prop :=
  ∃ (word : Token) (p q : Parser), s.LeadsTo (.token word p.ahead) ∧ word.is "DEFAULT" = true ∧
    Parse.defaultExpression b p = .ok e q

/-- What can be wrong with the definition of a table. -/
inductive DefinitionFault (s : TokenStream) (b : Bindings) : Fault → Prop where
  | reading {fault} : s.ReadingFault fault → DefinitionFault s b fault
  | semantic {fault} : fault.IsSemantic → DefinitionFault s b fault
  | coercion {fault} : fault.IsCoercion → DefinitionFault s b fault
  | default {e} : s.Defaults b e → e.MeetsMembership .none →
      DefinitionFault s b (.unsupported .membership)

end TokenStream

namespace Parse

variable {α : Type} {s : TokenStream} {b : Bindings} {P : α → Prop}

/-- Wherever the step starts in the stream, it stays in the stream, its results are in `P`, and it
faults only with what can be wrong with a definition. -/
abbrev Defines (s : TokenStream) (b : Bindings) (P : α → Prop) (step : Parse α) : Prop :=
  Ends (Parser.Within s) (s.DefinitionFault b) P step

theorem defines_of_readsIn {step : Parse α} (h : ReadsIn s P step) : Defines s b P step :=
  h.mono (fun _ => .reading) fun _ ha => ha

/-! ## Types -/

theorem readsIn_typeSizes : ReadsIn s (fun _ => True) typeSizes := by
  refine (readsIn_accept "(").bind fun opened _ => ?_
  cases opened with
  | false => exact ends_pure trivial
  | true =>
      refine readsIn_expectNumber.bind fun _ _ => (readsIn_accept ",").bind fun more _ => ?_
      cases more with
      | false => exact readsIn_expect ")"
      | true => exact readsIn_expectNumber.bind fun _ _ => readsIn_expect ")"

theorem readsIn_knownType? : ReadsIn s (fun _ => True) knownType? := by
  refine (readsIn_acceptHolding? _).bind fun found _ => ?_
  split
  · exact readsIn_typeSizes.bind fun _ _ => ends_pure trivial
  · exact ends_pure trivial

theorem readsIn_otherType : ReadsIn s (fun _ => True) otherType := by
  refine readsIn_atEnd.bind fun ended _ => ?_
  split
  · exact ends_pure trivial
  refine (readsIn_isNext _).bind fun delimited _ => ?_
  split
  · exact ends_pure trivial
  refine (readsIn_isNext _).bind fun modified _ => ?_
  split
  · exact ends_pure trivial
  · exact readsIn_expectToken.bind fun _ _ => ends_pure trivial

theorem readsIn_columnType : ReadsIn s (fun _ => True) columnType := by
  refine (readsIn_isNext _).bind fun modified _ => ?_
  cases modified with
  | true => exact readsIn_otherType
  | false =>
      refine readsIn_knownType?.bind fun known _ => ?_
      cases known with
      | some type => exact ends_pure trivial
      | none => exact readsIn_otherType

/-! ## Modifiers -/

theorem readsIn_defaultExpression : ReadsIn s Expr.CallsKnown (defaultExpression b) :=
  (readsIn_accept "+").bind fun _ _ => readsIn_constantExpression.bind fun e he =>
    ends_pure (Expr.callsKnown_bind b e he)

/-- A default that is read behind its word is one that the text has. -/
theorem endsAt_defaultValue {word : Token} {p : Parser} (hp : s.LeadsTo (.token word p.ahead))
    (hword : word.is "DEFAULT" = true) :
    EndsAt (Parser.Within s) (s.DefinitionFault b) (fun _ => True) (defaultValue b) p := by
  rw [defaultValue_eq_bind]
  refine endsAt_bind (defines_of_readsIn readsIn_defaultExpression p hp.behind)
    fun e q hq hwithin hknown => ?_
  refine ends_settle ((e.raises_eval Scope.named_none hknown).mono fun fault he => ?_)
    (fun _ _ => trivial) q hwithin
  cases he with
  | semantic he => exact .semantic he
  | coercion he => exact .coercion he
  | membership he => exact .default ⟨word, p, q, hp, hword, hq⟩ he

theorem endsAt_modifier (flags : ColumnFlags) (default : Value) {m : Modifier} {word : Token}
    {p : Parser} (hp : s.LeadsTo (.token word p.ahead))
    (hword : meaning? modifierWords word = some m) :
    EndsAt (Parser.Within s) (s.DefinitionFault b) (fun _ => True)
      (modifier b flags default m) p := by
  have hwithin : p.Within s := hp.behind
  have hreads : ∀ step : Parse (ColumnFlags × Value), ReadsIn s (fun _ => True) step →
      EndsAt (Parser.Within s) (s.DefinitionFault b) (fun _ => True) step p :=
    fun step h => defines_of_readsIn h p hwithin
  cases m with
  | default =>
      obtain ⟨w, hmem, hreads⟩ := exists_of_meaning? hword
      have hdefault : word.is "DEFAULT" = true := by
        simp [modifierWords] at hmem
        exact hmem ▸ hreads
      exact endsAt_bind (endsAt_defaultValue hp hdefault) fun _ q _ hwithin _ =>
        endsAt_pure hwithin trivial
  | notNull =>
      exact hreads _ ((readsIn_expect _).bind fun _ _ => readsIn_conflictClause.bind fun _ _ =>
        ends_pure trivial)
  | primaryKey =>
      exact hreads _ ((readsIn_expect _).bind fun _ _ => readsIn_direction.bind fun _ _ =>
        readsIn_conflictClause.bind fun _ _ => (readsIn_accept _).bind fun _ _ =>
          ends_pure trivial)
  | unique => exact hreads _ (readsIn_conflictClause.bind fun _ _ => ends_pure trivial)
  | references =>
      refine hreads _ (readsIn_expectToken.bind fun _ _ => (readsIn_isNext _).bind fun opened _ => ?_)
      cases opened with
      | true => exact readsIn_indexedColumns.bind fun _ _ => ends_pure trivial
      | false => exact ends_pure trivial
  | collate => exact hreads _ ((readsIn_plainWord _).bind fun _ _ => ends_pure trivial)
  | constraint => exact hreads _ (readsIn_expectToken.bind fun _ _ => ends_pure trivial)
  | null => exact endsAt_pure hwithin trivial

theorem definesOnBudget_modifiers (budget : Nat) (flags : ColumnFlags) (default : Value) :
    EndsOnBudget s (s.DefinitionFault b) (fun _ => True) (modifiers b · flags default) 1 1
      budget := by
  induction budget generalizing flags default with
  | zero => exact endsOnBudget_zero Nat.one_pos
  | succ budget ih =>
      intro p hp hbudget
      refine endsAt_bind (defines_of_readsIn (readsIn_acceptOne? _) p hp)
        fun found q hq hwithin _ => ?_
      cases found with
      | none => exact endsAt_pure hwithin trivial
      | some m =>
          have hlt := length_lt_of_acceptOne? hq
          rcases acceptOne?_eq_ok hq with ⟨hnone, -⟩ | ⟨m', word, rest, hm, hmeaning, hahead, rfl⟩
          · cases hnone
          cases hm
          have hword : s.LeadsTo (.token word rest) := hahead ▸ hp
          refine endsAt_bind (endsAt_modifier flags default hword hmeaning)
            fun result r hr hwithin _ => ?_
          have hle :=
            (actsAlike_modifier (.ended 0 0) b flags default m).movesOn.length_le hr
          exact ih result.1 result.2 r hwithin (by dsimp only at hle hlt; omega)

theorem raises_declare (name : String) (type : ColumnType) (flags : ColumnFlags)
    (default : Value) : Result.Raises Fault.IsCoercion (Column.declare name type flags default) :=
  Result.raises_bind (default.raises_coerce type) fun _ _ => Result.raises_ok _

theorem defines_columnDefinition : Defines s b (fun _ => True) (columnDefinition b) := by
  have hmodifiers : Defines s b (fun _ => True)
      (onBudget (fun p => p.ahead.length + 1) (modifiers b · .empty .null)) :=
    fun p hp => definesOnBudget_modifiers _ _ _ p hp (by dsimp only; omega)
  refine (defines_of_readsIn readsIn_expectName).bind fun name _ =>
    (defines_of_readsIn (readsIn_accept name)).bind fun _ _ =>
      (defines_of_readsIn readsIn_columnType).bind fun type _ =>
        hmodifiers.bind fun result _ => ?_
  exact ends_settle ((raises_declare name type result.1 result.2).mono fun _ => .coercion)
    fun _ _ => trivial

/-! ## Constraints and columns -/

theorem readsIn_constraintFrom (kind : Option Bool) :
    ReadsIn s (fun _ => True) (constraintFrom kind) := by
  have hcolumns : ReadsIn s (fun _ => True) (do
      let _ ← indexedColumns; conflictClause; return true) :=
    readsIn_indexedColumns.bind fun _ _ => readsIn_conflictClause.bind fun _ _ => ends_pure trivial
  cases kind with
  | none => exact ends_pure trivial
  | some isPrimary =>
      cases isPrimary with
      | true => exact (readsIn_expect "KEY").bind fun _ _ => hcolumns
      | false => exact hcolumns

theorem readsIn_tableConstraint : ReadsIn s (fun _ => True) tableConstraint := by
  refine (readsIn_isNext _).bind fun named _ => ?_
  cases named with
  | true =>
      refine (readsIn_expect _).bind fun _ _ => readsIn_expectToken.bind fun _ _ => ?_
      refine Ends.bind (P := fun _ => True) ?_ fun kind _ => readsIn_constraintFrom kind
      exact (readsIn_expectOne _).bind fun _ _ => ends_pure trivial
  | false => exact (readsIn_acceptOne? _).bind fun kind _ => readsIn_constraintFrom kind

theorem yields_constraintFrom (isPrimary : Bool) :
    Yields (· = true) (constraintFrom (some isPrimary)) := by
  have hcolumns : Yields (· = true) (do let _ ← indexedColumns; conflictClause; return true) :=
    yields_bind fun _ => yields_bind fun _ => yields_pure rfl
  cases isPrimary with
  | true => exact yields_bind fun _ => hcolumns
  | false => exact hcolumns

/-- Where no constraint is found, a token was looked for. -/
theorem peek_of_tableConstraint {p q : Parser} (h : tableConstraint p = .ok false q) :
    ∃ t, peek q = .ok t q := by
  obtain ⟨named, p₁, -, hbehind⟩ := bind_eq_ok.mp h
  cases named with
  | true =>
      have hyields : Yields (· = true) (do
          expect "CONSTRAINT"
          let _ ← expectToken
          (some <$> expectOne [("PRIMARY", true), ("UNIQUE", false)]) >>= constraintFrom) := by
        refine yields_bind fun _ => yields_bind fun _ => ?_
        rw [map_eq_pure_bind, bind_assoc]
        exact yields_bind fun isPrimary => by simpa using yields_constraintFrom isPrimary
      cases hyields p₁ false q hbehind
  | false =>
      obtain ⟨kind, p₂, hkind, hform⟩ := bind_eq_ok.mp hbehind
      rcases acceptOne?_eq_ok hkind with ⟨rfl, rfl⟩ | ⟨isPrimary, -, -, rfl, -⟩
      · cases hform
        obtain ⟨t, p₃, hpeek, -⟩ := bind_eq_ok.mp hkind
        obtain ⟨rfl, -⟩ := peek_eq_ok hpeek
        exact ⟨t, hpeek⟩
      · cases yields_constraintFrom isPrimary p₂ false q hform

theorem readsOnBudget_moreConstraints (budget : Nat) :
    EndsOnBudget s s.ReadingFault (fun _ => True) moreConstraints 1 1 budget := by
  induction budget with
  | zero => exact endsOnBudget_zero Nat.one_pos
  | succ budget ih =>
      intro p hp hbudget
      refine endsAt_bind (readsIn_accept "," p hp) fun more q hq hwithin _ => ?_
      cases more with
      | false => exact endsAt_pure hwithin trivial
      | true =>
          have hlt := length_lt_of_accept hq
          refine endsAt_bind (readsIn_tableConstraint q hwithin) fun found r hr hwithin _ => ?_
          cases found with
          | true =>
              have hle := (actsAlike_tableConstraint (.ended 0 0)).movesOn.length_le hr
              exact ih r hwithin (by omega)
          | false =>
              obtain ⟨t, hpeek⟩ := peek_of_tableConstraint hr
              exact TokenStream.ReadingFault.parse (isPlace_of_peek hwithin hpeek)

theorem definesOnBudget_definitions (budget : Nat) :
    EndsOnBudget s (s.DefinitionFault b) (fun _ => True) (definitions b) 1 1 budget := by
  induction budget with
  | zero => exact endsOnBudget_zero Nat.one_pos
  | succ budget ih =>
      intro p hp hbudget
      refine endsAt_bind (defines_of_readsIn readsIn_tableConstraint p hp)
        fun found q hq hwithin _ => ?_
      have hle := (actsAlike_tableConstraint (.ended 0 0)).movesOn.length_le hq
      cases found with
      | true =>
          have hlt := length_lt_of_tableConstraint (.ended 0 0) hq
          have hmore := (readsOnBudget_moreConstraints budget q hwithin (by omega)).mono
            (fun _ => TokenStream.DefinitionFault.reading (b := b)) fun _ h => h
          exact endsAt_bind hmore fun _ r _ hwithin _ => endsAt_pure hwithin trivial
      | false =>
          refine endsAt_bind (defines_columnDefinition q hwithin) fun column q₁ hq₁ hwithin _ => ?_
          refine endsAt_bind (defines_of_readsIn (readsIn_accept ",") q₁ hwithin)
            fun more q₂ hq₂ hwithin _ => ?_
          cases more with
          | false => exact endsAt_pure hwithin trivial
          | true =>
              have hle₁ := (runsToEnd_columnDefinition (.ended 0 0) b).moves.length_le hq₁
              have hlt := length_lt_of_accept hq₂
              exact endsAt_bind (ih q₂ hwithin (by omega)) fun _ r _ hwithin _ =>
                endsAt_pure hwithin trivial

/-! ## Triggers, views and indexes -/

theorem readsOnBudget_triggerBody (budget : Nat) :
    EndsOnBudget s s.ReadingFault (fun _ => True) triggerBody 1 1 budget := by
  induction budget with
  | zero => exact endsOnBudget_zero Nat.one_pos
  | succ budget ih =>
      intro p hp hbudget
      refine endsAt_bind (readsIn_accept ";" p hp) fun closed q hq hwithin _ => ?_
      cases closed with
      | false =>
          have hle := (movesOn_accept _).length_le hq
          refine endsAt_bind (readsIn_expectToken q hwithin) fun t r hr hwithin _ => ?_
          have hlt := length_lt_of_expectToken hr
          exact ih r hwithin (by omega)
      | true =>
          have hlt := length_lt_of_accept hq
          refine endsAt_bind (readsIn_accept "END" q hwithin) fun ended r hr hwithin _ => ?_
          have hle := (movesOn_accept _).length_le hr
          cases ended with
          | true => exact endsAt_pure hwithin trivial
          | false => exact ih r hwithin (by omega)

theorem readsIn_triggerEvent : ReadsIn s (fun _ => True) triggerEvent := by
  refine (readsIn_expectOne _).bind fun isUpdate _ => ?_
  cases isUpdate with
  | false => exact ends_pure trivial
  | true =>
      refine (readsIn_accept "OF").bind fun found _ => ?_
      cases found with
      | false => exact ends_pure trivial
      | true =>
          exact (readsIn_commaSeparated (fun _ => readsIn_expectToken.forget)
            readsIn_expectToken).bind fun _ _ => ends_pure trivial

theorem readsIn_trigger : ReadsIn s (fun _ => True) trigger := by
  have hbody : ReadsIn s (fun _ => True) (do
      expect "BEGIN"
      triggerBody ((← get).ahead.length + 1)) :=
    (readsIn_expect "BEGIN").bind fun _ _ => fun p hp =>
      readsOnBudget_triggerBody _ p hp (by omega)
  have hguard : ReadsIn s (fun _ => True) (do
      if ← accept "WHEN" then
        let _ ← expression
      expect "BEGIN"
      triggerBody ((← get).ahead.length + 1)) := by
    refine (readsIn_accept "WHEN").bind fun found _ => ?_
    cases found with
    | true => exact readsIn_expression.bind fun _ _ => hbody
    | false => exact hbody
  have hevent : ReadsIn s (fun _ => True) (do
      triggerEvent
      expect "ON"
      let _ ← expectName
      if ← accept "FOR" then
        expect "EACH"
        expect "ROW"
      if ← accept "WHEN" then
        let _ ← expression
      expect "BEGIN"
      triggerBody ((← get).ahead.length + 1)) := by
    refine readsIn_triggerEvent.bind fun _ _ => (readsIn_expect "ON").bind fun _ _ =>
      readsIn_expectName.bind fun _ _ => (readsIn_accept "FOR").bind fun found _ => ?_
    cases found with
    | true => exact (readsIn_expect _).bind fun _ _ => (readsIn_expect _).bind fun _ _ => hguard
    | false => exact hguard
  refine (readsIn_ifExists true).bind fun _ _ => readsIn_expectName.bind fun _ _ =>
    (readsIn_acceptOne? _).bind fun time _ => ?_
  split
  · exact (readsIn_expect "OF").bind fun _ _ => hevent
  · exact hevent

theorem readsIn_view : ReadsIn s (fun _ => True) view :=
  (readsIn_ifExists true).bind fun _ _ => readsIn_expectName.bind fun _ _ =>
    (readsIn_expect "AS").bind fun _ _ => readsIn_skipStatement

theorem readsIn_index : ReadsIn s (fun _ => True) index :=
  (readsIn_ifExists true).bind fun _ _ => readsIn_expectName.bind fun _ _ =>
    (readsIn_expect "ON").bind fun _ _ => readsIn_expectName.bind fun _ _ =>
      readsIn_indexedColumns.bind fun _ _ => ends_pure trivial

theorem readsIn_uniqueIndex : ReadsIn s (fun _ => True) uniqueIndex :=
  (readsIn_expect "INDEX").bind fun _ _ => readsIn_index

end Parse

end OnePassSql

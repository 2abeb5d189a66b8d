import OnePassSql.Proofs.Faults.Select
import OnePassSql.Proofs.Statement.Insert

/-!
What any statement can fault with, from its first word to its end. A row that was read in full is
written without a fault, and CREATE TABLE has only the faults of definitions.
-/

namespace OnePassSql.Statement

open Step Parse

variable {ρ α : Type} {s : TokenStream} {b : Bindings} {P : α → Prop}

/-! ## INSERT, UPDATE and DELETE -/

theorem readsIn_insertTarget : ReadsIn s (fun _ => True) insertTarget :=
  readsIn_orAction.bind fun _ _ => (readsIn_expect "INTO").bind fun _ _ =>
    readsIn_expectName.bind fun _ _ => (readsIn_expect "(").bind fun _ _ =>
      (readsIn_commaSeparated (fun _ => readsIn_expectName) readsIn_expectName).bind fun _ _ =>
        (readsIn_expect ")").bind fun _ _ => (readsIn_expect "VALUES").bind fun _ _ =>
          (readsIn_expect "(").bind fun _ _ => ends_pure trivial

/-- What can be wrong with a value that has no row. -/
theorem raises_insertedCell (t : Table) (table column : String) (v : Value) :
    Result.Raises (s.StatementFault b) (insertedCell t table column v) := by
  unfold insertedCell
  split
  · exact Result.raises_error (.semantic .semantic)
  · exact Result.raises_bind ((t.raises_columnType column).mono fun _ => .semantic)
      fun type _ => Result.raises_bind ((v.raises_coerce type).mono fun _ => .coercion)
        fun _ _ => Result.raises_ok _

theorem ends_insertedCells (t : Table) (table : String) (columns : List String) :
    Ends (Parser.Within s) (s.StatementFault b) (fun _ => True)
      (insertedCells b t table columns) := by
  induction columns with
  | nil => exact ends_throw (.semantic .semantic)
  | cons column columns ih =>
      refine (ends_of_readsIn readsIn_boundExpression).bind fun e he => ?_
      have hvalue : Result.Raises (s.StatementFault b) (e.eval t.scope) :=
        (e.raises_eval t.named_scope he.1).mono fun _ => .of_eval he.2 (.heading t)
      refine (ends_settle hvalue fun _ _ => trivial).bind fun v _ => ?_
      refine (ends_settle (raises_insertedCell t table column v) fun _ _ => trivial).bind
        fun cell _ => (ends_of_readsIn (readsIn_accept ",")).bind fun more _ => ?_
      cases more with
      | true => exact ih.bind fun _ _ => ends_pure trivial
      | false => exact ends_pure trivial

theorem staysIn_insertedRow :
    StaysIn s b (fun _ => True) (insertedRow : Statement ρ (String × List (Nat × Value))) := by
  refine (staysIn_of_readsIn readsIn_insertTarget).bind fun target _ =>
    (staysIn_table target.1).bind fun t _ => staysIn_bindings.bind fun bound hbound => ?_
  cases hbound
  refine (ends_parsing (ends_insertedCells t target.1 target.2)).bind fun cells _ =>
    (staysIn_of_readsIn (readsIn_expect ")")).bind fun _ _ => ?_
  dsimp only
  split
  · exact ends_throw (.semantic .semantic)
  · exact ends_pure trivial

theorem staysIn_insert [Record ρ] : StaysIn s b (fun _ => True) (insert : Statement ρ Table) := by
  intro t ht
  have hrow := staysIn_insertedRow t ht
  cases hread : insertedRow t with
  | error fault t' => exact endsAt_of_error (bind_eq_error.mpr (.inl hread)) (hrow.error hread)
  | ok row t' =>
      obtain ⟨name, cells⟩ := row
      obtain ⟨-, stored, columns, exprs, values, hreading, hputs⟩ := insertedRow_eq_ok hread
      exact endsAt_of_ok (insert_of_insertedRow hread hreading hputs) (hrow.ok hread).1 trivial

theorem readsIn_assignment : ReadsIn s (fun _ => True) (assignment b) :=
  readsIn_expectName.bind fun _ _ => (readsIn_expect "=").bind fun _ _ =>
    readsIn_boundExpression.bind fun _ _ => ends_pure trivial

theorem staysIn_update : StaysIn s b (fun _ => True) (update : Statement ρ Table) :=
  (staysIn_of_readsIn readsIn_orAction).bind fun _ _ =>
    (staysIn_of_readsIn readsIn_expectName).bind fun name _ =>
      (staysIn_of_readsIn (readsIn_expect "SET")).bind fun _ _ =>
        staysIn_bindings.bind fun _ _ =>
          (staysIn_of_readsIn (readsIn_commaSeparated (fun _ => readsIn_assignment)
            readsIn_assignment)).bind fun _ _ => staysIn_bindings.bind fun _ _ =>
              (staysIn_of_readsIn (readsIn_optionalExpression "WHERE")).bind fun _ _ =>
                (staysIn_table name).bind fun _ _ => ends_pure trivial

theorem staysIn_delete : StaysIn s b (fun _ => True) (delete : Statement ρ Table) :=
  (staysIn_of_readsIn (readsIn_expect "FROM")).bind fun _ _ =>
    (staysIn_of_readsIn readsIn_expectName).bind fun name _ => staysIn_bindings.bind fun _ _ =>
      (staysIn_of_readsIn (readsIn_optionalExpression "WHERE")).bind fun _ _ =>
        (staysIn_table name).bind fun _ _ => ends_pure trivial

/-! ## CREATE and DROP -/

/-- What is found under a key is listed with it. -/
theorem mem_of_lookup {κ β : Type} [BEq κ] [LawfulBEq κ] {entries : List (κ × β)} {key : κ} {b : β}
    (h : entries.lookup key = some b) : (key, b) ∈ entries := by
  obtain ⟨before, after, hentries, -⟩ := List.lookup_eq_some_iff.mp h
  rw [hentries]
  exact List.mem_append_right before (.head after)

/-- Wherever the step starts in the text, it stays in the text, its results are in `P`, and it
faults only with what can be wrong with a definition. -/
abbrev DefinesIn (s : TokenStream) (b : Bindings) (P : α → Prop) (x : Statement ρ α) : Prop :=
  Ends (Session.Within s b) (s.DefinitionFault b) P x

theorem definesIn_of_readsIn {step : Parse α} (h : ReadsIn s P step) :
    DefinesIn s b P (liftM step : Statement ρ α) :=
  ends_parsing (defines_of_readsIn h)

theorem definesIn_createTable : DefinesIn s b (fun _ => True) (createTable : Statement ρ Unit) := by
  refine (definesIn_of_readsIn (readsIn_ifExists true)).bind fun replace _ =>
    (definesIn_of_readsIn readsIn_expectName).bind fun name _ =>
      (definesIn_of_readsIn (readsIn_expect "(")).bind fun _ _ t ht => ?_
  rw [EndsAt, bind_apply_ok (bindings_apply t), ht.2, bind_apply_ok (tokensLeft_apply t)]
  refine endsAt_bind (endsAt_parsing ht.2
    (definesOnBudget_definitions _ t.parser ht.1 (by omega))) fun columns t' _ ht' _ => ?_
  refine ((definesIn_of_readsIn (readsIn_expect ")")).bind fun _ _ =>
    ends_get.bind fun t _ => ?_) t' ht'
  have hput : DefinesIn s b (fun _ => True)
      (change (.putTable name ⟨columns, []⟩) : Statement ρ Unit) :=
    ends_modify fun _ ht => ht
  split
  · exact Ends.bind (P := fun _ => True) (ends_throw (.semantic .semantic)) fun _ _ => hput
  · exact hput

/-- Something is listed for every kind of object, so `createObject` adds no fault of its own. -/
theorem lookup_creators (kind : ObjectKind) :
    (creators : List (ObjectKind × Statement ρ Unit)).lookup kind = some (createObject kind) := by
  cases kind <;> rfl

theorem staysIn_creators :
    ∀ entry ∈ (creators : List (ObjectKind × Statement ρ Unit)),
      StaysIn s b (fun _ => True) entry.2 := by
  simp only [creators, List.forall_mem_cons]
  exact ⟨definesIn_createTable.mono (fun _ => .of_definition) fun _ h => h,
    staysIn_of_readsIn readsIn_trigger, staysIn_of_readsIn readsIn_index,
    staysIn_of_readsIn readsIn_uniqueIndex, staysIn_of_readsIn readsIn_view, nofun⟩

theorem staysIn_create : StaysIn s b (fun _ => True) (create : Statement ρ Unit) :=
  (staysIn_of_readsIn (readsIn_acceptOne? _)).bind fun _ _ =>
    (staysIn_of_readsIn (readsIn_expectOne _)).bind fun kind _ =>
      staysIn_creators _ (mem_of_lookup (lookup_creators kind))

theorem staysIn_drop : StaysIn s b (fun _ => True) (drop : Statement ρ Unit) := by
  refine (staysIn_of_readsIn (readsIn_expectOne _)).bind fun kind _ =>
    (staysIn_of_readsIn (readsIn_ifExists false)).bind fun optional _ =>
      (staysIn_of_readsIn readsIn_expectName).bind fun name _ => ?_
  split
  · refine ends_get.bind fun t _ => (staysIn_change _).bind fun _ _ => ?_
    split
    · exact ends_throw (.semantic .semantic)
    · exact ends_pure trivial
  · exact ends_pure trivial

/-! ## Statements about the database itself -/

theorem staysIn_pragma : StaysIn s b (fun _ => True) (pragma : Statement ρ Table) := by
  refine (staysIn_of_readsIn (readsIn_accept "user_version")).bind fun isVersion _ => ?_
  cases isVersion with
  | true =>
      refine (staysIn_of_readsIn (readsIn_accept "=")).bind fun isSet _ => ?_
      cases isSet with
      | true =>
          exact (staysIn_of_readsIn readsIn_expectNumber).bind fun n _ =>
            (staysIn_change _).bind fun _ _ => ends_pure trivial
      | false => exact ends_get.bind fun _ _ => ends_pure trivial
  | false =>
      refine (staysIn_of_readsIn (readsIn_accept "table_info")).bind fun isInfo _ => ?_
      cases isInfo with
      | true =>
          exact (staysIn_of_readsIn (readsIn_expect "(")).bind fun _ _ =>
            (staysIn_of_readsIn readsIn_expectName).bind fun name _ =>
              (staysIn_of_readsIn (readsIn_expect ")")).bind fun _ _ =>
                (staysIn_table name).bind fun t _ =>
                  ends_settle ((Table.raises_ofRows _ _).mono fun _ => .coercion) fun _ _ => trivial
      | false => exact ends_throw .argument

theorem staysIn_describe : StaysIn s b (fun _ => True) (describe : Statement ρ Table) :=
  (staysIn_of_readsIn readsIn_expectName).bind fun name _ => (staysIn_table name).bind fun _ _ =>
    ends_settle ((Table.raises_ofRows _ _).mono fun _ => .coercion) fun _ _ => trivial

theorem staysIn_attach : StaysIn s b (fun _ => True) (attach : Statement ρ Unit) := by
  refine (staysIn_of_readsIn (readsIn_accept "DATABASE")).bind fun _ _ =>
    (staysIn_of_readsIn readsIn_expectName).bind fun file _ =>
      (staysIn_of_readsIn (readsIn_expect "AS")).bind fun _ _ =>
        (staysIn_of_readsIn readsIn_expectName).bind fun name _ => ends_get.bind fun _ _ => ?_
  split
  · exact staysIn_change _
  · exact ends_pure trivial

theorem readsIn_beginTransaction : ReadsIn s (fun _ => True) beginTransaction :=
  (readsIn_acceptOne? _).bind fun _ _ => (readsIn_accept "TRANSACTION").bind fun _ _ =>
    ends_pure trivial

theorem readsIn_endTransaction : ReadsIn s (fun _ => True) endTransaction :=
  (readsIn_accept "TRANSACTION").bind fun _ _ => ends_pure trivial

theorem readsIn_analyze : ReadsIn s (fun _ => True) analyze := by
  refine readsIn_atEnd.bind fun ended _ => ?_
  split
  · exact ends_pure trivial
  refine (readsIn_isNext _).bind fun closed _ => ?_
  split
  · exact ends_pure trivial
  · exact readsIn_expectName.bind fun _ _ => ends_pure trivial

/-! ## Whole statements -/

theorem StaysIn.silent {act : Statement ρ Unit} (h : StaysIn s b (fun _ => True) act) :
    StaysIn s b (fun _ => True) (silent act) :=
  Ends.bind h fun _ _ => ends_pure trivial

variable [Record ρ]

/-- Something is listed for every kind of statement, so `handle` adds no fault of its own. -/
theorem lookup_handlers (kind : StatementKind) :
    (handlers : List (StatementKind × Statement ρ Table)).lookup kind = some (handle kind) := by
  cases kind <;> rfl

theorem staysIn_handlers :
    ∀ entry ∈ (handlers : List (StatementKind × Statement ρ Table)),
      StaysIn s b (fun _ => True) entry.2 := by
  simp only [handlers, List.forall_mem_cons]
  exact ⟨staysIn_create.silent, staysIn_drop.silent, staysIn_pragma,
    (staysIn_of_readsIn readsIn_beginTransaction).silent,
    (staysIn_of_readsIn readsIn_endTransaction).silent, staysIn_insert, Select.staysIn_select,
    staysIn_update, staysIn_delete, staysIn_attach.silent,
    (staysIn_of_readsIn readsIn_analyze).silent, staysIn_describe, nofun⟩

theorem staysIn_complete : StaysIn s b (fun _ => True) (complete : Statement ρ Table) :=
  ((staysIn_of_readsIn (readsIn_expectOne _)).bind fun kind _ =>
    staysIn_handlers _ (mem_of_lookup (lookup_handlers kind))).bind
    fun _ _ => (staysIn_of_readsIn readsIn_expectEnd).bind fun _ _ => ends_pure trivial

end OnePassSql.Statement

import OnePassSql.Proofs.Statement.Selecting

/-! What statements answer is well typed: reports and descriptions in any case, the result of a
SELECT if the stored tables are. -/

namespace OnePassSql

open Step

theorem Table.wellTyped_report (name : String) (n : Int64) : (report name n).WellTyped := by
  refine ⟨fun c hc => ?_, fun cells hcells => ?_, fun _ _ => by simp [report]⟩
  · cases List.mem_singleton.mp hc
    rfl
  · cases List.mem_singleton.mp hcells
    exact .cons (.inl rfl) .nil

namespace Statement

open Parse Table

variable {ρ : Type}

theorem wellTyped_tableInfo {t info : Table} (h : tableInfo t = .ok info) : info.WellTyped := by
  refine wellTyped_ofRows h ?_ fun row hrow => ?_
  · decide
  · obtain ⟨⟨c, i⟩, -, rfl⟩ := List.mem_map.mp hrow
    rfl

theorem wellTyped_tableDescription {t description : Table}
    (h : tableDescription t = .ok description) : description.WellTyped := by
  refine wellTyped_ofRows h ?_ fun row hrow => ?_
  · decide
  · obtain ⟨c, -, rfl⟩ := List.mem_map.mp hrow
    rfl

theorem yieldsTyped_of_yields {x : Statement ρ Table} (h : Yields Table.WellTyped x) :
    YieldsTyped x :=
  fun s t s' _ hs => h s t s' hs

theorem yields_silent (act : Statement ρ Unit) : Yields Table.WellTyped (silent act) :=
  yields_bind fun _ => yields_pure (wellTyped_of_no_rows fun _ hc => nomatch hc)

theorem yields_pragma : Yields Table.WellTyped (pragma : Statement ρ Table) := by
  refine yields_bind fun version => ?_
  cases version with
  | true =>
      refine yields_bind fun assigned => ?_
      cases assigned with
      | true =>
          exact yields_bind fun _ => yields_bind fun _ =>
            yields_pure (wellTyped_of_no_rows fun _ hc => nomatch hc)
      | false => exact yields_bind fun _ => yields_pure (wellTyped_report _ _)
  | false =>
      refine yields_bind fun info => ?_
      cases info with
      | true =>
          exact yields_bind fun _ => yields_bind fun _ => yields_bind fun _ => yields_bind fun _ =>
            yields_settle fun _ => wellTyped_tableInfo
      | false => exact yields_throw _

theorem yields_describe : Yields Table.WellTyped (describe : Statement ρ Table) :=
  yields_bind fun _ => yields_bind fun _ => yields_settle fun _ => wellTyped_tableDescription

theorem yields_update : Yields Table.WellTyped (update : Statement ρ Table) :=
  yields_bind fun _ => yields_bind fun _ => yields_bind fun _ => yields_bind fun _ =>
    yields_bind fun _ => yields_bind fun _ => yields_bind fun _ => yields_bind fun _ =>
      yields_pure (wellTyped_report _ _)

theorem yields_delete : Yields Table.WellTyped (delete : Statement ρ Table) :=
  yields_bind fun _ => yields_bind fun _ => yields_bind fun _ => yields_bind fun _ =>
    yields_bind fun _ => yields_pure (wellTyped_report _ _)

variable [Record ρ]

theorem yields_insert : Yields Table.WellTyped (insert : Statement ρ Table) :=
  yields_bind fun _ => yields_bind fun _ => yields_pure (wellTyped_report _ _)

theorem yieldsTyped_select : YieldsTyped (Select.select : Statement ρ Table) :=
  yieldsTyped_bind respects_tokensLeft fun _ =>
    (Select.yieldsTyped_withinBudget _).1 none fun _ _ h => nomatch h

/-- On well typed stored tables every statement answers a well typed table. -/
theorem yieldsTyped_handle (kind : StatementKind) :
    YieldsTyped (handle kind : Statement ρ Table) := by
  cases kind with
  | select => exact yieldsTyped_select
  | pragma => exact yieldsTyped_of_yields yields_pragma
  | insert => exact yieldsTyped_of_yields yields_insert
  | update => exact yieldsTyped_of_yields yields_update
  | delete => exact yieldsTyped_of_yields yields_delete
  | describe => exact yieldsTyped_of_yields yields_describe
  | _ => exact yieldsTyped_of_yields (yields_silent _)

theorem yieldsTyped_complete : YieldsTyped (complete : Statement ρ Table) := by
  intro s t s' htyped h
  obtain ⟨t', s₁, hrun, hend⟩ := bind_eq_ok.mp h
  obtain ⟨_, s₂, -, hgiven⟩ := bind_eq_ok.mp hend
  cases hgiven
  exact yieldsTyped_after_parsing yieldsTyped_handle s t s₁ htyped hrun

end Statement

/-- What a query answers is well typed if the stored tables are. -/
theorem Database.WellTyped.answer {ρ : Type} [Record ρ] {db : Database} (h : db.WellTyped)
    {records : Records ρ} {sql : String} {params : List Value} {t : Table}
    (hanswer : (db.query records sql params).answer = .ok t) : t.WellTyped := by
  have hbound : (db.bindAll params).WellTyped := h
  unfold Database.query Database.execute at hanswer
  split at hanswer
  · cases hanswer
  · cases hrun : Statement.complete ⟨.ofText sql, db.bindAll params, records⟩ with
    | ok t' s =>
        rw [hrun] at hanswer
        cases hanswer
        exact Statement.yieldsTyped_complete _ _ _ hbound hrun
    | error fault s =>
        rw [hrun] at hanswer
        cases hanswer

end OnePassSql

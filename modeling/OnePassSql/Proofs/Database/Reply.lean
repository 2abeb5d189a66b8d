import OnePassSql.Database.Query
import OnePassSql.Proofs.Statement.Effects

/-! The reply to a query, told from the run of its statement. -/

namespace OnePassSql

open Step

/-- A statement that was carried out up to its end is complete. -/
theorem Statement.complete_of_run {ρ : Type} [Record ρ] {s s₁ : Session ρ} {t : Table} {p : Parser}
    (hrun : run s = .ok t s₁) (hend : Parse.expectEnd s₁.parser = .ok ⟨⟩ p) :
    complete s = .ok t { s₁ with parser := p } :=
  bind_eq_ok.mpr ⟨t, s₁, hrun, bind_eq_ok.mpr ⟨_, _, parsing_eq_ok.mpr ⟨p, hend, rfl⟩, rfl⟩⟩

namespace Database

variable {ρ : Type} [Record ρ] {db : Database} {records : Records ρ} {sql : String}
  {params : List Value}

theorem query_of_ok (h : db.dropped = false) {t : Table} {s : Session ρ}
    (hrun : Statement.complete ⟨.ofText sql, db.bindAll params, records⟩ = .ok t s) :
    db.query records sql params = ⟨.ok t, s.database.unbind, s.records⟩ := by
  unfold query execute
  rw [h, hrun]
  rfl

theorem query_of_error (h : db.dropped = false) {fault : Fault} {s : Session ρ}
    (hrun : Statement.complete ⟨.ofText sql, db.bindAll params, records⟩ = .error fault s) :
    db.query records sql params
      = ⟨.error (fault.annotate sql), s.database.unbind, s.records⟩ := by
  unfold query execute
  rw [h, hrun]
  rfl

/-- What is answered, a statement has given that ran to its end. -/
theorem exists_run_of_answer {t : Table} (h : (db.query records sql params).answer = .ok t) :
    db.dropped = false ∧
      ∃ s, Statement.complete ⟨.ofText sql, db.bindAll params, records⟩ = .ok t s := by
  cases hdropped : db.dropped with
  | true =>
      rw [query_of_dropped hdropped] at h
      cases h
  | false =>
      refine ⟨rfl, ?_⟩
      cases hrun : Statement.complete ⟨.ofText sql, db.bindAll params, records⟩ with
      | ok u s =>
          rw [query_of_ok hdropped hrun] at h
          cases h
          exact ⟨s, rfl⟩
      | error fault s =>
          rw [query_of_error hdropped hrun] at h
          cases h

end Database

end OnePassSql

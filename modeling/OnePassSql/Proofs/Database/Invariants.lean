import Mathlib.Logic.Relation
import OnePassSql.Proofs.Database.Frame
import OnePassSql.Proofs.Statement.Answering

/-!
What holds between the calls of every run: rows are as wide as their tables, defaults are of the
kinds of their columns, no parameter is bound, and a closed database is empty and stays closed.
-/

namespace OnePassSql

/-- Every row that the table holds itself has a cell for each column, and every default is null or
of the kind of its column's type. -/
structure Table.WellShaped (t : Table) : Prop where
  width : ∀ cells, .owned cells ∈ t.rows → cells.length = t.columns.length
  defaults : ∀ c ∈ t.columns, c.default.fits c.type = true

theorem Table.WellTyped.wellShaped {t : Table} (h : t.WellTyped) : t.WellShaped :=
  ⟨fun cells hcells => (h.rows cells hcells).length_eq.symm, h.defaults⟩

namespace Database

/-! ## Parameters between calls -/

theorem bindings_query {ρ : Type} [Record ρ] {db : Database} (h : db.bindings = .empty)
    (records : Records ρ) (sql : String) (params : List Value) :
    (db.query records sql params).database.bindings = .empty := by
  cases hdropped : db.dropped with
  | true =>
      rw [query_of_dropped hdropped]
      exact h
  | false =>
      rw [database_query_of_open hdropped]
      rfl

theorem Reachable.bindings_eq_empty {db : Database} (h : Reachable db) : db.bindings = .empty := by
  induction h with
  | create settings files => rfl
  | query records sql params _ ih => exact bindings_query ih records sql params
  | linkRows _ hlink ih =>
      obtain ⟨-, t, -, rfl⟩ := linkRows_eq_ok hlink
      exact ih
  | close _ ih => exact ih

/-! ## Closing -/

/-- The database was closed, and holds nothing any more. -/
structure Closed (db : Database) : Prop where
  dropped : db.dropped = true
  tables : db.tables = .empty
  attached : db.attached = .empty

theorem closed_close (db : Database) : db.close.Closed := ⟨rfl, rfl, rfl⟩

/-- Only closing a database sets its mark. -/
theorem dropped_query {ρ : Type} [Record ρ] (db : Database) (records : Records ρ) (sql : String)
    (params : List Value) : (db.query records sql params).database.dropped = db.dropped := by
  cases hdropped : db.dropped with
  | true => rw [query_of_dropped hdropped, hdropped]
  | false =>
      obtain ⟨db', heffect, hquery⟩ := exists_effect_of_query hdropped records sql params
      rw [hquery]
      exact heffect.sameBut.dropped.trans hdropped

theorem Reachable.closed {db : Database} (h : Reachable db) (hdropped : db.dropped = true) :
    db.Closed := by
  induction h with
  | create settings files => cases hdropped
  | @query db ρ _ records sql params _ ih =>
      have hbefore : db.dropped = true := by rw [← hdropped, dropped_query]
      rw [query_of_dropped hbefore]
      exact ih hbefore
  | @linkRows db db' name ids n _ hlink ih =>
      obtain ⟨hopen, t, -, rfl⟩ := linkRows_eq_ok hlink
      have hstill : db.dropped = true := hdropped
      rw [hopen] at hstill
      cases hstill
  | close _ _ => exact closed_close _

/-- A call that changes the state, perhaps before it fails. -/
inductive Call : Database → Database → Prop where
  | query {db} {ρ : Type} [Record ρ] (records : Records ρ) (sql params) :
      Call db (db.query records sql params).database
  | linkRows {db db'} {name ids n} : db.linkRows name ids = .ok (n, db') → Call db db'
  | close {db} : Call db db.close

theorem Closed.call {db db' : Database} (h : db.Closed) (hcall : Call db db') : db'.Closed := by
  cases hcall with
  | query records sql params =>
      rw [query_of_dropped h.dropped]
      exact h
  | linkRows hlink =>
      have hopen := (linkRows_eq_ok hlink).1
      rw [h.dropped] at hopen
      cases hopen
  | close => exact closed_close db

/-! ## All of them -/

/-- Over every run of calls, stored tables keep their shape, no parameter stays bound, a closed
database stays closed and empty, and what queries answer has the shape as well. -/
theorem reachable_wellShaped {db : Database} (h : Reachable db) :
    (∀ name t, db.tables.get? name = some t → t.WellShaped) ∧ db.bindings = .empty ∧
      (db.dropped = true → ∀ db', Relation.ReflTransGen Call db db' →
        db'.dropped = true ∧ db'.tables = .empty ∧ db'.attached = .empty) ∧
      ∀ (ρ : Type) [Record ρ] (records : Records ρ) (sql : String) (params : List Value)
        (t : Table), (db.query records sql params).answer = .ok t → t.WellShaped := by
  refine ⟨fun name t ht => (h.wellTyped name t ht).wellShaped, h.bindings_eq_empty,
    fun hdropped db' hcalls => ?_,
    fun ρ _ records sql params t ht => (h.wellTyped.answer ht).wellShaped⟩
  have hclosed : db'.Closed := by
    induction hcalls with
    | refl => exact h.closed hdropped
    | tail _ hcall ih => exact ih.call hcall
  exact ⟨hclosed.dropped, hclosed.tables, hclosed.attached⟩

/-- A row that was written before the statement's end was refused, after which the parameter is
forgotten; and a database that takes no table once it is closed. -/
theorem reachable_wellShaped_refused_end : ∃ db t u, Reachable db ∧
    db.tables.get? "t" = some t ∧ t.rows = [.owned [.integer 7, .text "x"]] ∧ t.WellShaped ∧
    db.bindings = .empty ∧ (db.query (⟨[]⟩ : Records CellRecord)
      "SELECT 5 UNION SELECT * FROM t" []).answer.toOption = some u ∧ u.WellShaped ∧
    (db.close.query (⟨[]⟩ : Records CellRecord) "CREATE TABLE u (a)" []).database.tables
      = .empty := by
  obtain ⟨db, hdb⟩ : ∃ db, db = ((standard.query (⟨[]⟩ : Records CellRecord)
      "CREATE TABLE t (a INTEGER DEFAULT '7', b TEXT)" []).database.query
        (⟨[]⟩ : Records CellRecord) "INSERT INTO t (b) VALUES (?) junk" [.text "x"]).database :=
    ⟨_, rfl⟩
  have hreach : Reachable db := hdb ▸ ((Reachable.create _ _).query _ _ _).query _ _ _
  have hget : db.tables.get? "t" = some ⟨[⟨"a", .integer, .empty, .integer 7, 0⟩, .plain "b" .text],
      [.owned [.integer 7, .text "x"]]⟩ := by
    subst hdb
    decide +kernel
  have hanswer : (db.query (⟨[]⟩ : Records CellRecord) "SELECT 5 UNION SELECT * FROM t"
      []).answer.toOption = some ⟨[⟨"a", .integer, .empty, .integer 7, 0⟩, .plain "b" .text,
        .plain "5" .integer], [.owned [.integer 7, .text "x", .null],
          .owned [.integer 7, .null, .integer 5]]⟩ := by
    subst hdb
    decide +kernel
  obtain ⟨hstored, hbindings, -, hanswered⟩ := reachable_wellShaped hreach
  obtain ⟨-, -, hclosed, -⟩ := reachable_wellShaped hreach.close
  refine ⟨db, _, _, hreach, hget, rfl, hstored "t" _ hget, hbindings, hanswer,
    hanswered CellRecord ⟨[]⟩ _ [] _ (Result.eq_ok_of_toOption hanswer),
    (hclosed rfl _ (.single (.query (⟨[]⟩ : Records CellRecord) "CREATE TABLE u (a)" []))).2.1⟩

end Database

end OnePassSql

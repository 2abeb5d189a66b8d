import OnePassSql.Proofs.Database.Invariants
import OnePassSql.Proofs.Database.Reply
import OnePassSql.Proofs.Statement.Locality

/-!
Two INSERTs that do not name the same table can trade places: each of them answers as it would alone,
and both orders lead to one database. An INSERT that fails is no exception, nor is one whose end is
refused after its row was written.
-/

namespace OnePassSql

namespace Database

/-! ## Stores -/

theorem agreesAt_store {target : Target} {write : Option (String × Table)} (db : Database)
    (h : ∀ entry ∈ write, target ≠ .table entry.1) : db.AgreesAt target (db.store write) := by
  rcases write with _ | ⟨name, t⟩
  · exact .refl _ _
  · have hsame := sameBut_change db (.putTable name t)
    refine ⟨rfl, rfl, fun other htarget => hsame.otherTables other fun heq => ?_⟩
    exact h (name, t) rfl (htarget.trans heq.symm)

theorem store_comm {write write' : Option (String × Table)} (db : Database)
    (h : ∀ entry ∈ write, ∀ entry' ∈ write', entry.1 ≠ entry'.1) :
    (db.store write).store write' = (db.store write').store write := by
  rcases write with _ | ⟨name, t⟩
  · rfl
  rcases write' with _ | ⟨name', t'⟩
  · rfl
  · have hcomm := NameMap.insert_comm db.tables (h _ rfl _ rfl) t t'
    simp only [store, change, hcomm]

theorem AgreesAt.bindAll {target : Target} {db db' : Database} (h : db.AgreesAt target db')
    (params : List Value) : (db.bindAll params).AgreesAt target (db'.bindAll params) :=
  ⟨congrArg (Bindings.bindFrom · 0 params) h.bindings, h.dropped, h.table⟩

/-- Between calls no parameter is bound, so forgetting those of a statement restores what was. -/
theorem unbind_store_bindAll {db : Database} (h : db.bindings = .empty)
    (write : Option (String × Table)) (params : List Value) :
    ((db.bindAll params).store write).unbind = db.store write := by
  have hunbound : (db.bindAll params).unbind = db := by
    rw [bindAll, unbind, ← h]
  rcases write with _ | ⟨name, t⟩
  · exact hunbound
  · exact congrArg (change · (.putTable name t)) hunbound

/-! ## INSERTs on all databases that agree -/

/-- The text is an INSERT. -/
def IsInsert (sql : String) : Prop :=
  ∃ p, Parse.expectOne Statement.firstWords (.ofText sql) = .ok .insert p

variable {ρ : Type} [Record ρ]

/-- An INSERT has one answer and makes one write in all open databases that agree at its target. -/
theorem exists_reply_of_insert {db : Database} (hopen : db.dropped = false)
    (hbindings : db.bindings = .empty) {sql : String} (hinsert : IsInsert sql)
    (params : List Value) (records : Records ρ) :
    ∃ answer write, (∀ entry ∈ write, Statement.targetIn sql = .table entry.1) ∧
      ∀ db', db.AgreesAt (Statement.targetIn sql) db' →
        db'.query records sql params = ⟨answer, db'.store write, records⟩ := by
  obtain ⟨p, hword⟩ := hinsert
  obtain ⟨answer, q, write, htarget, hlocal⟩ :=
    Statement.localAt_complete (s := ⟨.ofText sql, db.bindAll params, records⟩) hword
  refine ⟨answer.mapError (Fault.annotate sql), write, htarget, fun db' hagrees => ?_⟩
  have hrun := hlocal ⟨.ofText sql, db'.bindAll params, records⟩ ⟨rfl, hagrees.bindAll params⟩
  have hunbound := unbind_store_bindAll (hagrees.bindings.trans hbindings) write params
  have hopen' : db'.dropped = false := hagrees.dropped.trans hopen
  cases answer with
  | ok t => rw [query_of_ok hopen' hrun, hunbound]; rfl
  | error fault => rw [query_of_error hopen' hrun, hunbound]; rfl

end Database

/-- The next query, on the state that the reply left. -/
def Reply.query {ρ : Type} [Record ρ] (reply : Reply ρ) (sql : String) (params : List Value) :
    Reply ρ :=
  reply.database.query reply.records sql params

namespace Database

variable {ρ : Type} [Record ρ]

/-- INSERTs that do not name the same table commute. In either order each of them answers what it
answers without the other, and the database and the records are the same in the end. -/
theorem query_insert_comm {db : Database} (h : Reachable db) {sql sql' : String}
    (hinsert : IsInsert sql) (hinsert' : IsInsert sql')
    (hapart : ∀ name, Statement.targetIn sql = .table name → Statement.targetIn sql' ≠ .table name)
    (params params' : List Value) (records : Records ρ) :
    ∃ db', (db.query records sql params).query sql' params'
        = ⟨(db.query records sql' params').answer, db', records⟩ ∧
      (db.query records sql' params').query sql params
        = ⟨(db.query records sql params).answer, db', records⟩ := by
  cases hdropped : db.dropped with
  | true =>
      refine ⟨db, ?_, ?_⟩ <;>
        simp only [Reply.query, query_of_dropped hdropped]
  | false =>
      obtain ⟨answer, write, htarget, hreply⟩ :=
        exists_reply_of_insert hdropped h.bindings_eq_empty hinsert params records
      obtain ⟨answer', write', htarget', hreply'⟩ :=
        exists_reply_of_insert hdropped h.bindings_eq_empty hinsert' params' records
      have hseen : db.AgreesAt (Statement.targetIn sql') (db.store write) :=
        agreesAt_store db fun entry hentry => hapart entry.1 (htarget entry hentry)
      have hseen' : db.AgreesAt (Statement.targetIn sql) (db.store write') :=
        agreesAt_store db fun entry hentry heq =>
          hapart entry.1 heq (htarget' entry hentry)
      have hcomm : (db.store write).store write' = (db.store write').store write := by
        refine store_comm db fun entry hentry entry' hentry' heq => ?_
        exact hapart entry.1 (htarget entry hentry) (heq ▸ htarget' entry' hentry')
      refine ⟨(db.store write).store write', ?_, ?_⟩
      · rw [hreply db (.refl _ _), hreply' db (.refl _ _), Reply.query, hreply' _ hseen]
      · rw [hreply db (.refl _ _), hreply' db (.refl _ _), Reply.query, hreply _ hseen', hcomm]

/-- A row that stays although the end of its statement is refused, and one in another table. -/
theorem query_insert_comm_refused_end : ∃ db db', Reachable db ∧
    (db.query (⟨[]⟩ : Records CellRecord) "INSERT INTO t (a) VALUES (?) junk" [.integer 5]).query
        "INSERT INTO sqlite_stat1 (tbl) VALUES (?)" [.text "x"]
      = ⟨.ok (.report "inserted_rows" 1), db', ⟨[]⟩⟩ ∧
    (db.query (⟨[]⟩ : Records CellRecord) "INSERT INTO sqlite_stat1 (tbl) VALUES (?)"
        [.text "x"]).query "INSERT INTO t (a) VALUES (?) junk" [.integer 5]
      = ⟨.error (.misread (.expected [";", "end of statement"]) 29
          "INSERT INTO t (a) VALUES (?) junk"), db', ⟨[]⟩⟩ ∧
    (db'.tables.get? "t").map Table.rows = some [.owned [.integer 5]] ∧
    (db'.tables.get? "sqlite_stat1").map Table.rows = some [.owned [.text "x", .null, .null]] := by
  obtain ⟨db, hdb⟩ : ∃ db, db = (standard.query (⟨[]⟩ : Records CellRecord)
      "CREATE TABLE t (a INTEGER)" []).database := ⟨_, rfl⟩
  have hreach : Reachable db := hdb ▸ (Reachable.create _ _).query _ _ _
  have hinsert : IsInsert "INSERT INTO t (a) VALUES (?) junk" :=
    ⟨_, Step.eq_ok_of_run' (by decide +kernel)⟩
  have hinsert' : IsInsert "INSERT INTO sqlite_stat1 (tbl) VALUES (?)" :=
    ⟨_, Step.eq_ok_of_run' (by decide +kernel)⟩
  have hapart : Statement.targetIn "INSERT INTO t (a) VALUES (?) junk"
      ≠ Statement.targetIn "INSERT INTO sqlite_stat1 (tbl) VALUES (?)" := by
    decide +kernel
  obtain ⟨db', hfirst, hsecond⟩ := query_insert_comm hreach hinsert hinsert'
    (fun name htarget htarget' => hapart (htarget.trans htarget'.symm)) [.integer 5] [.text "x"]
    (⟨[]⟩ : Records CellRecord)
  have hanswer : (db.query (⟨[]⟩ : Records CellRecord) "INSERT INTO sqlite_stat1 (tbl) VALUES (?)"
      [.text "x"]).answer = .ok (.report "inserted_rows" 1) := by
    subst hdb
    decide +kernel
  have hanswer' : (db.query (⟨[]⟩ : Records CellRecord) "INSERT INTO t (a) VALUES (?) junk"
      [.integer 5]).answer = .error (.misread (.expected [";", "end of statement"]) 29
        "INSERT INTO t (a) VALUES (?) junk") := by
    subst hdb
    decide +kernel
  have hfinal := congrArg Reply.database hfirst
  dsimp only at hfinal
  refine ⟨db, db', hreach, hanswer ▸ hfirst, hanswer' ▸ hsecond, ?_, ?_⟩
  · rw [← hfinal]
    subst hdb
    decide +kernel
  · rw [← hfinal]
    subst hdb
    decide +kernel

end Database

end OnePassSql

import OnePassSql.Database.Query
import OnePassSql.Proofs.Statement.Insert

/-!
Statements are all or nothing. Every handler reads and checks until nothing can go wrong any more
and changes the database then, so a handler that faults leaves it as it was. Only the end of the
statement is looked for after the change.
-/

namespace OnePassSql

open Step

theorem NameMap.erase_of_not_contains {α : Type} {m : NameMap α} {name : String}
    (h : m.contains name = false) : m.erase name = m := by
  rw [contains, get?, Option.isSome_eq_false_iff, Option.isNone_iff_eq_none,
    List.lookup_eq_none_iff] at h
  have hfilter : m.entries.filter (fun entry => entry.1 != name) = m.entries := by
    rw [List.filter_eq_self]
    intro entry hentry
    exact bne_iff_ne.mpr fun heq => bne_iff_ne.mp (h entry hentry) heq.symm
  rw [erase, hfilter]

namespace Statement

open Parse

variable {ρ : Type}

/-! ## Steps that leave the database -/

theorem sameDatabase_of_reads {α : Type} {x : Statement ρ α} (h : Respects Session.ReadsTo x) :
    Respects Session.SameDatabase x :=
  h.mono fun _ _ hst => hst.2

theorem faults_after_parsing {α β : Type} {step : Parse α} {f : α → Statement ρ β}
    (h : ∀ a, FaultsWithin Session.SameDatabase (f a)) :
    FaultsWithin Session.SameDatabase ((liftM step : Statement ρ α) >>= f) :=
  (sameDatabase_parsing step).bind_faultsWithin h

theorem faults_after_table {β : Type} {name : String} {f : Table → Statement ρ β}
    (h : ∀ t, FaultsWithin Session.SameDatabase (f t)) :
    FaultsWithin Session.SameDatabase (table name >>= f) :=
  (respects_table name).bind_faultsWithin h

theorem faults_after_bindings {β : Type} {f : Bindings → Statement ρ β}
    (h : ∀ b, FaultsWithin Session.SameDatabase (f b)) :
    FaultsWithin Session.SameDatabase (bindings >>= f) :=
  respects_bindings.bind_faultsWithin h

/-- A change is made without a fault. -/
theorem change_faults (c : Change) :
    FaultsWithin Session.SameDatabase (change c : Statement ρ Unit) :=
  faultsWithin_modify

/-! ## Handlers that change the database last -/

theorem createTable_faults :
    FaultsWithin Session.SameDatabase (createTable : Statement ρ Unit) := by
  refine faults_after_parsing fun replace => faults_after_parsing fun name =>
    faults_after_parsing fun _ => faults_after_bindings fun b =>
      respects_tokensLeft.bind_faultsWithin fun n =>
        faults_after_parsing fun columns => faults_after_parsing fun _ =>
          respects_get.bind_faultsWithin fun s => ?_
  split
  · exact (respects_throw _).bind_faultsWithin fun _ => change_faults _
  · exact change_faults _

theorem create_faults : FaultsWithin Session.SameDatabase (create : Statement ρ Unit) := by
  refine faults_after_parsing fun _ => faults_after_parsing fun kind => ?_
  cases kind with
  | table => exact createTable_faults
  | _ => exact (sameDatabase_parsing _).faultsWithin

/-- DROP erases before it faults, but only where there is nothing to erase. -/
theorem drop_faults : FaultsWithin Session.SameDatabase (drop : Statement ρ Unit) := by
  refine faults_after_parsing fun kind => faults_after_parsing fun optional =>
    faults_after_parsing fun name => ?_
  split
  · intro s fault s' h
    obtain hget | ⟨_, s₁, hget, h₁⟩ := bind_eq_error.mp h
    · cases hget
    cases hget
    obtain hchange | ⟨_, s₂, hchange, h₂⟩ := bind_eq_error.mp h₁
    · cases hchange
    cases hchange
    split at h₂
    · next hmissing =>
        cases h₂
        rw [Bool.and_eq_true, Bool.not_eq_true'] at hmissing
        simp only [Session.SameDatabase, Database.change,
          NameMap.erase_of_not_contains hmissing.1]
    · cases h₂
  · exact (respects_pure _).faultsWithin

theorem pragma_faults : FaultsWithin Session.SameDatabase (pragma : Statement ρ Table) := by
  refine faults_after_parsing fun version => ?_
  split
  · refine faults_after_parsing fun assigned => ?_
    split
    · exact faults_after_parsing fun n => (change_faults _).bind_pure _
    · exact respects_get.bind_faultsWithin fun s => (respects_pure _).faultsWithin
  · refine faults_after_parsing fun info => ?_
    split
    · exact faults_after_parsing fun _ => faults_after_parsing fun _ =>
        faults_after_parsing fun _ => faults_after_table fun _ =>
          (respects_settle _).faultsWithin
    · exact (respects_throw _).faultsWithin

theorem attach_faults : FaultsWithin Session.SameDatabase (attach : Statement ρ Unit) := by
  refine faults_after_parsing fun _ => faults_after_parsing fun file =>
    faults_after_parsing fun _ => faults_after_parsing fun name =>
      respects_get.bind_faultsWithin fun s => ?_
  split
  · exact change_faults _
  · exact (respects_pure _).faultsWithin

/-! ## Handlers that change nothing -/

theorem describe_sameDatabase :
    Respects Session.SameDatabase (describe : Statement ρ Table) :=
  (sameDatabase_parsing _).bind fun name => (respects_table name).bind fun _ =>
    respects_settle _

theorem update_sameDatabase : Respects Session.SameDatabase (update : Statement ρ Table) :=
  (sameDatabase_parsing _).bind fun _ => (sameDatabase_parsing _).bind fun name =>
    (sameDatabase_parsing _).bind fun _ => respects_bindings.bind fun _ =>
      (sameDatabase_parsing _).bind fun _ => respects_bindings.bind fun _ =>
        (sameDatabase_parsing _).bind fun _ => (respects_table name).bind fun _ =>
          respects_pure _

theorem delete_sameDatabase : Respects Session.SameDatabase (delete : Statement ρ Table) :=
  (sameDatabase_parsing _).bind fun _ => (sameDatabase_parsing _).bind fun name =>
    respects_bindings.bind fun _ => (sameDatabase_parsing _).bind fun _ =>
      (respects_table name).bind fun _ => respects_pure _

theorem silent_sameDatabase {act : Statement ρ Unit} (h : Respects Session.SameDatabase act) :
    Respects Session.SameDatabase (silent act) :=
  h.bind fun _ => respects_pure _

/-! ## INSERT -/

theorem insertedRow_sameDatabase :
    Respects Session.SameDatabase (insertedRow : Statement ρ (String × List (Nat × Value))) := by
  refine (sameDatabase_parsing _).bind fun target => ?_
  obtain ⟨name, columns⟩ := target
  refine (respects_table name).bind fun t => respects_bindings.bind fun b =>
    (sameDatabase_parsing _).bind fun values => ?_
  obtain ⟨cells, left⟩ := values
  refine (sameDatabase_parsing _).bind fun _ => ?_
  split
  · exact (respects_throw _).bind fun _ => respects_pure _
  · exact (respects_pure _).bind fun _ => respects_pure _

/-- INSERT faults only while it reads. -/
theorem insert_faults [Record ρ] :
    FaultsWithin Session.SameDatabase (insert : Statement ρ Table) := by
  intro s fault s' h
  obtain hread | ⟨⟨name, cells⟩, s₁, hread, hwrite⟩ := bind_eq_error.mp h
  · exact insertedRow_sameDatabase.error hread
  · obtain ⟨-, t, columns, exprs, values, hreading, hputs⟩ := insertedRow_eq_ok hread
    rw [insert_of_insertedRow hread hreading hputs] at h
    cases h

/-! ## All statements -/

theorem silent_faults {act : Statement ρ Unit} (h : FaultsWithin Session.SameDatabase act) :
    FaultsWithin Session.SameDatabase (silent act) :=
  h.bind_pure _

/-- A handler that faults leaves the database as it was. -/
theorem handle_faults [Record ρ] (kind : StatementKind) :
    FaultsWithin Session.SameDatabase (handle kind : Statement ρ Table) := by
  cases kind with
  | create => exact silent_faults create_faults
  | drop => exact silent_faults drop_faults
  | pragma => exact pragma_faults
  | begin => exact (silent_sameDatabase (sameDatabase_parsing _)).faultsWithin
  | finish => exact (silent_sameDatabase (sameDatabase_parsing _)).faultsWithin
  | insert => exact insert_faults
  | select => exact (sameDatabase_of_reads Select.reads_select).faultsWithin
  | update => exact update_sameDatabase.faultsWithin
  | delete => exact delete_sameDatabase.faultsWithin
  | attach => exact silent_faults attach_faults
  | analyze => exact (silent_sameDatabase (sameDatabase_parsing _)).faultsWithin
  | describe => exact describe_sameDatabase.faultsWithin

/-- Everything before the end of a statement is all or nothing. -/
theorem run_faults [Record ρ] : FaultsWithin Session.SameDatabase (run : Statement ρ Table) :=
  faults_after_parsing handle_faults

end Statement

namespace Database

/-- The databases hold the same: tables with their columns, counters and owned rows, the version,
what is attached, and whether the database was closed. -/
structure SameContents (db db' : Database) : Prop where
  tables : db'.tables = db.tables
  userVersion : db'.userVersion = db.userVersion
  attached : db'.attached = db.attached
  dropped : db'.dropped = db.dropped

theorem SameContents.of_bindAll {db db' : Database} {params : List Value}
    (h : db' = db.bindAll params) : db.SameContents db' := by
  subst h
  exact ⟨rfl, rfl, rfl, rfl⟩

theorem SameContents.unbind {db db' : Database} (h : db.SameContents db') :
    db.SameContents db'.unbind :=
  ⟨h.tables, h.userVersion, h.attached, h.dropped⟩

variable {ρ : Type} [Record ρ]

theorem execute_of_run_error {db : Database} {records : Records ρ} {sql : String} {fault : Fault}
    {s : Session ρ} (h : Statement.run ⟨.ofText sql, db, records⟩ = .error fault s) :
    db.execute records sql = ⟨.error fault, s.database, s.records⟩ := by
  have hcomplete : Statement.complete ⟨.ofText sql, db, records⟩ = .error fault s :=
    bind_eq_error.mpr (.inl h)
  rw [execute, hcomplete]

/-- Once the handler is done, only the end of the statement can still be refused. -/
theorem execute_of_run_ok {db : Database} {records : Records ρ} {sql : String} {t : Table}
    {s : Session ρ} (h : Statement.run ⟨.ofText sql, db, records⟩ = .ok t s) :
    (db.execute records sql).answer = .ok t ∨ ∃ problem p,
      Parse.expectEnd s.parser = .error problem p ∧
        (db.execute records sql).answer = .error problem := by
  have hcomplete : Statement.complete ⟨.ofText sql, db, records⟩
      = ((liftM Parse.expectEnd : Statement ρ Unit) >>= fun _ => pure t) s :=
    bind_apply_ok h _
  cases hend : Parse.expectEnd s.parser with
  | ok _ p =>
      have hok := hcomplete.trans
        (bind_eq_ok.mpr ⟨_, _, Statement.parsing_eq_ok.mpr ⟨p, hend, rfl⟩, rfl⟩)
      exact .inl (by rw [execute, hok])
  | error problem p =>
      have herror := hcomplete.trans
        (bind_eq_error.mpr (.inl (Statement.parsing_eq_error.mpr ⟨p, hend, rfl⟩)))
      exact .inr ⟨problem, p, rfl, by rw [execute, herror]⟩

/-- A query whose handler faults keeps the contents of the database. So one that fails and yet
changed them had been carried out, and only its end was refused. -/
theorem query_all_or_nothing (db : Database) (records : Records ρ) (sql : String)
    (params : List Value) :
    (∀ fault s, Statement.run ⟨.ofText sql, db.bindAll params, records⟩ = .error fault s →
      db.SameContents s.database ∧ db.SameContents (db.query records sql params).database) ∧
    ∀ fault, (db.query records sql params).answer = .error fault →
      ¬ db.SameContents (db.query records sql params).database →
      ∃ t s problem p, Statement.run ⟨.ofText sql, db.bindAll params, records⟩ = .ok t s ∧
        Parse.expectEnd s.parser = .error problem p ∧ fault = problem.annotate sql := by
  cases hdropped : db.dropped with
  | true =>
      have hquery : db.query records sql params = ⟨.error .dropped, db, records⟩ := by
        rw [query, if_pos hdropped]
      have hsame : db.SameContents (db.query records sql params).database := by
        rw [hquery]
        exact ⟨rfl, rfl, rfl, rfl⟩
      exact ⟨fun fault s h => ⟨.of_bindAll (Statement.run_faults _ _ _ h), hsame⟩,
        fun fault _ hchanged => absurd hsame hchanged⟩
  | false =>
      have hquery : db.query records sql params
          = ⟨((db.bindAll params).execute records sql).answer.mapError (Fault.annotate sql),
            ((db.bindAll params).execute records sql).database.unbind,
            ((db.bindAll params).execute records sql).records⟩ := by
        rw [query, hdropped]
        rfl
      have hkept : ∀ fault s, Statement.run ⟨.ofText sql, db.bindAll params, records⟩
          = .error fault s → db.SameContents s.database ∧
            db.SameContents (db.query records sql params).database := by
        intro fault s h
        have hsame : db.SameContents s.database := .of_bindAll (Statement.run_faults _ _ _ h)
        rw [hquery, execute_of_run_error h]
        exact ⟨hsame, hsame.unbind⟩
      refine ⟨hkept, fun fault hanswer hchanged => ?_⟩
      cases hrun : Statement.run ⟨.ofText sql, db.bindAll params, records⟩ with
      | error problem s => exact absurd (hkept problem s hrun).2 hchanged
      | ok t s =>
          rw [hquery] at hanswer
          rcases execute_of_run_ok hrun with hok | ⟨problem, p, hend, herror⟩
          · rw [hok] at hanswer
            cases hanswer
          · rw [herror] at hanswer
            cases hanswer
            exact ⟨t, s, problem, p, rfl, hend, rfl⟩

/-- An INSERT with too few values keeps the tables; a version that was set before the end of its
statement was refused stays set. -/
theorem query_all_or_nothing_both_ways :
    (∃ fault s, Statement.run (⟨.ofText "INSERT INTO sqlite_stat1 (tbl, idx) VALUES ('a')",
        standard.bindAll [], ⟨[]⟩⟩ : Session CellRecord) = .error fault s ∧
      standard.SameContents s.database) ∧
    ∃ t s problem p, Statement.run (⟨.ofText "PRAGMA user_version = 3 4", standard.bindAll [],
        ⟨[]⟩⟩ : Session CellRecord) = .ok t s ∧
      Parse.expectEnd s.parser = .error problem p := by
  refine ⟨?_, ?_⟩
  · have hfails : (match Statement.run (⟨.ofText
        "INSERT INTO sqlite_stat1 (tbl, idx) VALUES ('a')", standard.bindAll [], ⟨[]⟩⟩ :
          Session CellRecord) with
        | .ok _ _ => false
        | .error _ _ => true) = true := by
      decide +kernel
    cases hrun : Statement.run (⟨.ofText "INSERT INTO sqlite_stat1 (tbl, idx) VALUES ('a')",
        standard.bindAll [], ⟨[]⟩⟩ : Session CellRecord) with
    | ok t s =>
        rw [hrun] at hfails
        cases hfails
    | error fault s =>
        exact ⟨fault, s, rfl, ((query_all_or_nothing standard _ _ []).1 fault s hrun).1⟩
  · have hchanged : ¬ standard.SameContents (standard.query (⟨[]⟩ : Records CellRecord)
        "PRAGMA user_version = 3 4" []).database := by
      intro h
      exact absurd h.userVersion (by decide +kernel)
    obtain ⟨t, s, problem, p, hrun, hend, -⟩ :=
      (query_all_or_nothing standard (⟨[]⟩ : Records CellRecord) "PRAGMA user_version = 3 4" []).2
        (.misread (.expected [";", "end of statement"]) 24 "PRAGMA user_version = 3 4")
        (by decide +kernel) hchanged
    exact ⟨t, s, problem, p, hrun, hend⟩

end Database

end OnePassSql

import OnePassSql.Proofs.Statement.Effects
import OnePassSql.Proofs.Table.WellTyped

/-!
Stored tables stay of the kinds that their columns declare, over every run of queries. The numbers
of an automatic column are the one exception: they are stored as integers in a column of another
type.
-/

namespace OnePassSql

open Step

/-! ## Statements -/

namespace Database

/-- Every stored table has cells of the kinds that its columns may hold. -/
def WellTyped (db : Database) : Prop := ∀ name t, db.tables.get? name = some t → t.WellTyped

theorem wellTyped_create (settings : Settings) (files : NameMap DatabaseId) :
    (create settings files).WellTyped := by
  intro name t h
  dsimp only [create] at h
  split at h
  · rw [NameMap.get?_insert] at h
    split at h
    · cases h
      refine Table.wellTyped_of_no_rows fun c hc => ?_
      obtain ⟨name, -, rfl⟩ := List.mem_map.mp hc
      rfl
    · cases h
  · cases h

theorem WellTyped.putTable {db : Database} (h : db.WellTyped) {name : String} {t : Table}
    (ht : t.WellTyped) : (db.change (.putTable name t)).WellTyped := by
  intro other t' hget
  rw [change, NameMap.get?_insert] at hget
  split at hget
  · cases hget
    exact ht
  · exact h other t' hget

theorem WellTyped.dropTable {db : Database} (h : db.WellTyped) (name : String) :
    (db.change (.dropTable name)).WellTyped := by
  intro other t' hget
  rw [change, NameMap.get?_erase] at hget
  split at hget
  · cases hget
  · exact h other t' hget

/-- Whatever a statement makes of well typed tables, they are well typed. -/
theorem WellTyped.effect {db db' : Database} {target : Target} (h : db.WellTyped)
    (heffect : db.Effect target db') : db'.WellTyped := by
  cases heffect with
  | none => exact h
  | create hcolumns => exact h.putTable (Table.wellTyped_of_no_rows hcolumns)
  | @drop name => exact h.dropTable name
  | @insert name t cells hstored hcells hbrings =>
      obtain ⟨cell, hcell⟩ := List.exists_mem_of_ne_nil _ hcells
      have hne : t.columns ≠ [] :=
        List.ne_nil_of_length_pos (Nat.zero_lt_of_lt (hbrings cell hcell).lt_length)
      exact h.putTable ((h name t hstored).appendRow hbrings hne)
  | setVersion => exact h
  | attach _ => exact h

/-! ## Runs -/

variable {ρ : Type} [Record ρ]

theorem WellTyped.query {db : Database} (h : db.WellTyped) (records : Records ρ) (sql : String)
    (params : List Value) : (db.query records sql params).database.WellTyped := by
  cases hdropped : db.dropped with
  | true =>
      rw [query_of_dropped hdropped]
      exact h
  | false =>
      obtain ⟨db', heffect, hquery⟩ := exists_effect_of_query hdropped records sql params
      have hbound : (db.bindAll params).WellTyped := h
      have hdone : db'.WellTyped := hbound.effect heffect
      rw [hquery]
      exact hdone

theorem linkRows_eq_ok {db db' : Database} {name : String} {ids : List RecordId} {n : Nat}
    (h : db.linkRows name ids = .ok (n, db')) :
    db.dropped = false ∧ ∃ t, db.tables.get? name = some t ∧
      db' = db.change (.putTable name (ids.foldl Table.linkRow t)) := by
  unfold linkRows at h
  split at h
  · cases h
  · next hopen =>
      obtain ⟨t, ht, hlinked⟩ := Result.bind_eq_ok.mp h
      cases hlinked
      refine ⟨Bool.eq_false_iff.mpr hopen, t, ?_, rfl⟩
      unfold Database.table at ht
      split at ht
      · next hget =>
          cases ht
          exact hget
      · cases ht

theorem linkRows_of_stored {db : Database} (hopen : db.dropped = false) {name : String} {t : Table}
    (ht : db.tables.get? name = some t) (ids : List RecordId) : db.linkRows name ids
      = .ok (ids.length, db.change (.putTable name (ids.foldl Table.linkRow t))) := by
  simp [linkRows, hopen, Database.table, ht, bind, Except.bind, pure, Except.pure, change]

theorem WellTyped.linkRows {db db' : Database} (h : db.WellTyped) {name : String}
    {ids : List RecordId} {n : Nat} (hlink : db.linkRows name ids = .ok (n, db')) :
    db'.WellTyped := by
  obtain ⟨-, t, hstored, rfl⟩ := linkRows_eq_ok hlink
  exact h.putTable ((h name t hstored).linkRows ids)

/-- The states that calls lead a fresh database to, whether they succeed or fail. The records behind
linked rows may be any at each call. -/
inductive Reachable : Database → Prop where
  | create (settings files) : Reachable (create settings files)
  | query {db} {ρ : Type} [Record ρ] (records : Records ρ) (sql params) :
      Reachable db → Reachable (db.query records sql params).database
  | linkRows {db db'} {name ids n} :
      Reachable db → db.linkRows name ids = .ok (n, db') → Reachable db'
  | close {db} : Reachable db → Reachable db.close

theorem Reachable.wellTyped {db : Database} (h : Reachable db) : db.WellTyped := by
  induction h with
  | create settings files => exact wellTyped_create settings files
  | query records sql params _ ih => exact ih.query records sql params
  | linkRows _ hlink ih => exact ih.linkRows hlink
  | close _ _ => exact fun name t hget => nomatch hget

/-- In a reachable database every cell of a row that a table holds itself has its column, and is
null or of the kind of the column's type unless it is an integer that an automatic column of
another type gave. -/
theorem reachable_cell_fits_or_automatic {db : Database} (h : Reachable db) {name : String}
    {t : Table} (ht : db.tables.get? name = some t) {cells : List Value}
    (hrow : .owned cells ∈ t.rows) {j : Nat} {v : Value} (hv : cells[j]? = some v) :
    ∃ c, t.columns[j]? = some c ∧ (¬ v.fits c.type = true ↔
      c.flags.autoIncrement = true ∧ c.type ≠ .integer ∧ ∃ n, v = .integer n) := by
  obtain ⟨c, hc, hholds⟩ :=
    Result.exists_left_of_forall₂ ((h.wellTyped name t ht).rows cells hrow) hv
  exact ⟨c, hc, hholds.not_fits_iff⟩

/-- The table that a fresh database stores after a row was inserted into a TEXT column that counts.
-/
theorem get?_after_automatic_text :
    (((standard.query (⟨[]⟩ : Records CellRecord)
        "CREATE TABLE t (a TEXT PRIMARY KEY AUTOINCREMENT, b TEXT)" []).database.query
      (⟨[]⟩ : Records CellRecord) "INSERT INTO t (b) VALUES ('x')" []).database.tables.get? "t")
      = some ⟨[⟨"a", .text, ⟨false, true, true⟩, .null, 1⟩, .plain "b" .text],
          [.owned [.integer 0, .text "x"]]⟩ := by
  decide +kernel

theorem reachable_after_automatic_text :
    Reachable ((standard.query (⟨[]⟩ : Records CellRecord)
        "CREATE TABLE t (a TEXT PRIMARY KEY AUTOINCREMENT, b TEXT)" []).database.query
      (⟨[]⟩ : Records CellRecord) "INSERT INTO t (b) VALUES ('x')" []).database :=
  (Reachable.create _ _).query _ _ _ |>.query _ _ _

/-- The exception is there: a TEXT column that counts holds an integer. -/
theorem reachable_cell_fits_or_automatic_text :
    ∃ db t cells c, Reachable db ∧ db.tables.get? "t" = some t ∧ .owned cells ∈ t.rows ∧
      cells[0]? = some (.integer 0) ∧ t.columns[0]? = some c ∧ c.flags.autoIncrement = true ∧
      c.type ≠ .integer := by
  have hrow : Row.owned [.integer 0, .text "x"] ∈ [Row.owned [.integer 0, .text "x"]] :=
    List.mem_singleton.mpr rfl
  obtain ⟨c, hc, hiff⟩ := reachable_cell_fits_or_automatic reachable_after_automatic_text
    get?_after_automatic_text hrow (j := 0) rfl
  have hfits : ¬ (Value.integer 0).fits c.type = true := by
    cases hc
    decide
  exact ⟨_, _, _, c, reachable_after_automatic_text, get?_after_automatic_text, hrow, rfl, hc,
    (hiff.mp hfits).1, (hiff.mp hfits).2.1⟩

/-- Not every cell of a reachable database is of the kind of its column's type. -/
theorem not_reachable_cell_fits :
    ¬ ∀ db : Database, Reachable db → ∀ name t, db.tables.get? name = some t →
      ∀ cells, .owned cells ∈ t.rows → ∀ (j : Nat) (v : Value) (c : Column),
        cells[j]? = some v → t.columns[j]? = some c → v.fits c.type = true := by
  intro h
  have hfits := h _ reachable_after_automatic_text "t" _ get?_after_automatic_text _
    (List.mem_singleton.mpr rfl) 0 _ _ rfl rfl
  revert hfits
  decide

end Database

end OnePassSql

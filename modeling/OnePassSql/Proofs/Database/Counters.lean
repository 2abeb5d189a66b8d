import OnePassSql.Proofs.Database.Frame
import OnePassSql.Proofs.Database.Reply

/-!
Automatic columns count rows. Every INSERT moves the counter on by one, whether it takes the number
or names the column, and a number that is given by hand does not move it: the value of an automatic
column is the number of rows before, over every run of INSERTs.
-/

namespace OnePassSql

open Step

/-! ## Statements -/

namespace Column

theorem declare_counter {name : String} {type : ColumnType} {flags : ColumnFlags} {default : Value}
    {c : Column} (h : declare name type flags default = .ok c) : c.counter = 0 := by
  obtain ⟨v, -, hc⟩ := Result.bind_eq_ok.mp h
  cases hc
  rfl

theorem advance_counter {c : Column} (h : c.flags.autoIncrement = true) :
    c.advance.counter = c.counter + 1 := by
  rw [advance, if_pos h]

end Column

namespace Statement

open Parse

variable {ρ : Type} {sql name : String} {columns : List String}

/-- The text is a CREATE TABLE of the name. -/
def CreatesTable (sql name : String) : Prop :=
  ∃ p q, expectOne firstWords (.ofText sql) = .ok .create p ∧
    targetOf .create p = .ok (.table name) q

/-- The text is an INSERT into the table of the name that names the columns. -/
def InsertsInto (sql name : String) (columns : List String) : Prop :=
  ∃ p q, expectOne firstWords (.ofText sql) = .ok .insert p ∧
    insertTarget p = .ok (name, columns) q

/-! ## Tables that are created -/

/-- A run that succeeds stores, under the name that is read where it starts, a table without rows
and with its counters at the start. -/
def StoresFresh (target : Parse Target) (x : Statement ρ Unit) : Prop :=
  ∀ s s' name q, x s = .ok ⟨⟩ s' → target s.parser = .ok (.table name) q →
    ∃ columns, s'.database.tables.get? name = some ⟨columns, []⟩ ∧ ∀ c ∈ columns, c.counter = 0

theorem storesFresh_after_parsing {α : Type} {step : Parse α} {g : α → Parse Target}
    {f : α → Statement ρ Unit} (h : ∀ a, StoresFresh (g a) (f a)) :
    StoresFresh (step >>= g) ((liftM step : Statement ρ α) >>= f) := by
  intro s s' name q hrun htarget
  obtain ⟨a, s₁, hstep, hrun⟩ := bind_eq_ok.mp hrun
  obtain ⟨p, hp, rfl⟩ := parsing_eq_ok.mp hstep
  rw [bind_apply_ok hp] at htarget
  exact h a _ _ _ _ hrun htarget

theorem storesFresh_of_nothing (x : Statement ρ Unit) : StoresFresh (pure .nothing) x := by
  intro s s' name q _ htarget
  cases htarget

theorem storesFresh_create : StoresFresh (targetOf .create) (create : Statement ρ Unit) := by
  refine storesFresh_after_parsing fun _ => storesFresh_after_parsing fun kind => ?_
  cases kind with
  | table =>
      refine storesFresh_after_parsing fun replace => storesFresh_after_parsing fun name => ?_
      intro s s' name' q h htarget
      cases htarget
      obtain ⟨_, s₁, -, h⟩ := bind_eq_ok.mp h
      obtain ⟨b, s₂, -, h⟩ := bind_eq_ok.mp h
      obtain ⟨n, s₃, -, h⟩ := bind_eq_ok.mp h
      obtain ⟨columns, s₄, hcolumns, h⟩ := bind_eq_ok.mp h
      have hdeclared := yields_parsing (definitions_yields Column.declare_counter b (n + 1))
        _ _ _ hcolumns
      obtain ⟨_, s₅, -, h⟩ := bind_eq_ok.mp h
      obtain ⟨_, s₆, -, h⟩ := bind_eq_ok.mp h
      have hput : s'.database = s₆.database.change (.putTable name ⟨columns, []⟩) := by
        split at h
        · obtain ⟨_, _, hthrow, -⟩ := bind_eq_ok.mp h
          cases hthrow
        · cases h
          rfl
      refine ⟨columns, ?_, hdeclared⟩
      rw [hput]
      exact (NameMap.get?_insert _ _ _ _).trans (if_pos rfl)
  | _ => exact storesFresh_of_nothing _

/-! ## Rows that are inserted -/

/-- An INSERT that succeeds has added one row to the table that it names. -/
theorem insert_stores [Record ρ] {s s' : Session ρ} {answer t : Table} {q : Parser}
    (h : insert s = .ok answer s') (htarget : insertTarget s.parser = .ok (name, columns) q)
    (hstored : s.database.tables.get? name = some t) :
    ∃ writes values, s'.database.tables.get? name = some (t.appendRow writes) ∧
      InsertSpec t columns values (t.appendRow writes)
        (Table.writeCells t.freshCells writes) := by
  obtain ⟨⟨name', writes⟩, s₁, hread, -⟩ := bind_eq_ok.mp h
  obtain ⟨-, t', columns', exprs, values, hreading, hputs⟩ := insertedRow_eq_ok hread
  obtain ⟨p, -, htarget', -⟩ := hreading.tokens
  cases htarget.symm.trans htarget'
  cases hstored.symm.trans hreading.stored
  cases h.symm.trans (insert_of_insertedRow hread hreading hputs)
  exact ⟨writes, values, (NameMap.get?_insert _ _ _ _).trans (if_pos rfl),
    insertSpec_appendRow hputs⟩

/-- A statement that is carried out to its end was handled by its first word. -/
theorem handle_of_complete [Record ρ] {s s' : Session ρ} {answer : Table} {kind : StatementKind}
    {p : Parser} (h : complete s = .ok answer s')
    (hfirst : expectOne firstWords s.parser = .ok kind p) :
    ∃ s₁, handle kind { s with parser := p } = .ok answer s₁ ∧ s'.database = s₁.database := by
  obtain ⟨t, s₁, hrun, h⟩ := bind_eq_ok.mp h
  obtain ⟨_, s₂, hend, h⟩ := bind_eq_ok.mp h
  obtain ⟨q, -, rfl⟩ := parsing_eq_ok.mp hend
  cases h
  obtain ⟨kind', s₀, hkind, hhandle⟩ := bind_eq_ok.mp hrun
  obtain ⟨p', hp', rfl⟩ := parsing_eq_ok.mp hkind
  cases hfirst.symm.trans hp'
  exact ⟨s₁, hhandle, rfl⟩

end Statement

/-! ## Tables that count their rows -/

namespace Table

/-- One of the names means the column. -/
def Names (t : Table) (columns : List String) (j : Nat) : Prop :=
  ∃ column ∈ columns, t.columnIndex? column = some j

instance (t : Table) (columns : List String) (j : Nat) : Decidable (t.Names columns j) :=
  inferInstanceAs (Decidable (∃ column ∈ columns, t.columnIndex? column = some j))

/-- The rows come from INSERTs that named these columns: an automatic column has counted them, and
where an INSERT did not name it, it holds the number of rows before. -/
structure Counts (t : Table) (named : List (List String)) : Prop where
  rows : t.rows.length = named.length
  counter (c : Column) : c ∈ t.columns → c.flags.autoIncrement = true → c.counter = named.length
  automatic (j k : Nat) (c : Column) (columns : List String) : t.columns[j]? = some c →
    c.flags.autoIncrement = true → named[k]? = some columns → ¬t.Names columns j →
    ∃ cells, t.rows[k]? = some (.owned cells) ∧ cells[j]? = some (.integer (Int64.ofNat k))

theorem counts_of_created {columns : List Column} (h : ∀ c ∈ columns, c.counter = 0) :
    Counts ⟨columns, []⟩ [] where
  rows := rfl
  counter c hc _ := h c hc
  automatic j k c columns _ _ hnamed _ := by simp at hnamed

/-- One INSERT moves every automatic column on by one, whichever columns it names. -/
theorem Counts.appendRow {t : Table} {named : List (List String)} {columns : List String}
    {values : List Value} {writes : List (Nat × Value)} (h : t.Counts named)
    (hspec : Statement.InsertSpec t columns values (t.appendRow writes)
      (writeCells t.freshCells writes)) :
    (t.appendRow writes).Counts (named ++ [columns]) where
  rows := by
    rw [hspec.rows, List.length_append, List.length_append, h.rows, List.length_singleton,
      List.length_singleton]
  counter c hc hauto := by
    obtain ⟨c, hmem, rfl⟩ := List.mem_map.mp hc
    rw [Column.advance_flags] at hauto
    rw [Column.advance_counter hauto, h.counter c hmem hauto, List.length_append,
      List.length_singleton]
  automatic j k c columns' hc hauto hnamed hunnamed := by
    obtain ⟨c, hcolumn, rfl⟩ := Option.map_eq_some_iff.mp (List.getElem?_map.symm.trans hc)
    rw [Column.advance_flags] at hauto
    simp only [Names, columnIndex?_appendRow] at hunnamed
    rw [hspec.rows]
    rcases Nat.lt_or_ge k named.length with hk | hk
    · rw [List.getElem?_append_left hk] at hnamed
      rw [List.getElem?_append_left (h.rows ▸ hk)]
      exact h.automatic j k c columns' hcolumn hauto hnamed hunnamed
    · -- the row is the new one, and its number is what the column counted so far
      obtain rfl : k = named.length := by
        have hlt := (List.getElem?_eq_some_iff.mp hnamed).1
        rw [List.length_append, List.length_singleton] at hlt
        omega
      rw [List.getElem?_concat_length] at hnamed
      cases hnamed
      rw [← h.rows, List.getElem?_concat_length]
      refine ⟨_, rfl, ?_⟩
      rw [hspec.unnamed j c hcolumn fun name hname hindex => hunnamed ⟨name, hname, hindex⟩,
        if_pos hauto, h.counter c (List.mem_of_getElem? hcolumn) hauto, h.rows]

end Table

namespace Database

/-! ## Runs of INSERTs -/

/-- The states in which a table has been created and then filled by INSERTs that were answered; the
list has the columns that each of them named. Statements about anything else may come in between,
and the records behind linked rows may be any at each call. -/
inductive InsertRun (name : String) : Database → List (List String) → Prop where
  | created {db : Database} {ρ : Type} [Record ρ] (records : Records ρ) {sql} (params) {answer} :
      Statement.CreatesTable sql name → (db.query records sql params).answer = .ok answer →
      InsertRun name (db.query records sql params).database []
  | inserted {db : Database} {named} {ρ : Type} [Record ρ] (records : Records ρ) {sql} (params)
      {columns answer} : InsertRun name db named → Statement.InsertsInto sql name columns →
      (db.query records sql params).answer = .ok answer →
      InsertRun name (db.query records sql params).database (named ++ [columns])
  | other {db : Database} {named} {ρ : Type} [Record ρ] (records : Records ρ) {sql} (params) :
      InsertRun name db named → Statement.targetIn sql ≠ .table name →
      InsertRun name (db.query records sql params).database named

section Queries

variable {ρ : Type} [Record ρ] {db : Database} {records : Records ρ} {sql name : String}
  {params : List Value} {answer : Table}

theorem exists_handle_of_answer {kind : StatementKind} {p : Parser}
    (h : (db.query records sql params).answer = .ok answer)
    (hfirst : Parse.expectOne Statement.firstWords (.ofText sql) = .ok kind p) :
    ∃ s, Statement.handle kind ⟨p, db.bindAll params, records⟩ = .ok answer s ∧
      (db.query records sql params).database.tables = s.database.tables := by
  obtain ⟨hopen, s, hcomplete⟩ := exists_run_of_answer h
  obtain ⟨s₁, hhandle, hdatabase⟩ := Statement.handle_of_complete hcomplete hfirst
  refine ⟨s₁, hhandle, ?_⟩
  rw [query_of_ok hopen hcomplete, ← hdatabase]
  rfl

/-- A statement about something else leaves the table. -/
theorem get?_query_of_other_target (db : Database) (records : Records ρ) (params : List Value)
    (h : Statement.targetIn sql ≠ .table name) :
    (db.query records sql params).database.tables.get? name = db.tables.get? name := by
  cases hdropped : db.dropped with
  | true => rw [query_of_dropped hdropped]
  | false =>
      obtain ⟨db', heffect, hquery⟩ := exists_effect_of_query hdropped records sql params
      rw [hquery]
      exact heffect.sameBut.otherTables name h

end Queries

theorem InsertRun.counts {name : String} {db : Database} {named : List (List String)}
    (h : InsertRun name db named) : ∃ t, db.tables.get? name = some t ∧ t.Counts named := by
  induction h with
  | created records params hcreates hanswer =>
      obtain ⟨p, q, hfirst, htarget⟩ := hcreates
      obtain ⟨s, hhandle, htables⟩ := exists_handle_of_answer hanswer hfirst
      obtain ⟨_, s', hcreate, hreturn⟩ := bind_eq_ok.mp hhandle
      cases hreturn
      obtain ⟨columns, hstored, hcounters⟩ :=
        Statement.storesFresh_create _ _ _ _ hcreate htarget
      exact ⟨_, htables ▸ hstored, Table.counts_of_created hcounters⟩
  | inserted records params _ hinserts hanswer ih =>
      obtain ⟨t, hstored, hcounts⟩ := ih
      obtain ⟨p, q, hfirst, htarget⟩ := hinserts
      obtain ⟨s, hhandle, htables⟩ := exists_handle_of_answer hanswer hfirst
      obtain ⟨writes, values, hwritten, hspec⟩ :=
        Statement.insert_stores hhandle htarget hstored
      exact ⟨_, htables ▸ hwritten, hcounts.appendRow hspec⟩
  | other records params _ htarget ih =>
      obtain ⟨t, hstored, hcounts⟩ := ih
      exact ⟨t, (get?_query_of_other_target _ _ _ htarget).trans hstored, hcounts⟩

/-- The number of rows before is all that an automatic column goes by. A row that was inserted
without naming the column holds this number, so it differs from what the column gave to other rows,
until it wraps around at 64 bits; and it is the same as a value that was there before only if an
INSERT that named the column put it there. -/
theorem automatic_value_of_insertRun {name : String} {db : Database} {named : List (List String)}
    (h : InsertRun name db named) :
    ∃ t, db.tables.get? name = some t ∧ t.rows.length = named.length ∧
      ∀ {ρ : Type} [Record ρ] (records : Records ρ) (j k : Nat) (c : Column)
        (columns : List String), t.columns[j]? = some c → c.flags.autoIncrement = true →
        named[k]? = some columns → ¬t.Names columns j →
        t.cell records k j = .integer (Int64.ofNat k) ∧
          ∀ i earlier, i < k → named[i]? = some earlier →
            t.cell records i j = t.cell records k j → t.Names earlier j ∨ Nat.pow 2 64 ∣ k - i := by
  obtain ⟨t, hstored, hcounts⟩ := h.counts
  refine ⟨t, hstored, hcounts.rows, ?_⟩
  intro ρ _ records j k c columns hc hauto hnamed hunnamed
  have hgives (i : Nat) (columns : List String) (hnamed : named[i]? = some columns)
      (hunnamed : ¬t.Names columns j) : t.cell records i j = .integer (Int64.ofNat i) := by
    obtain ⟨cells, hrow, hcell⟩ := hcounts.automatic j i c columns hc hauto hnamed hunnamed
    rw [Table.cell, hrow]
    dsimp only
    rw [Row.cell, hcell]
    rfl
  refine ⟨hgives k columns hnamed hunnamed, fun i earlier hi hearlier hsame => ?_⟩
  rw [or_iff_not_imp_left]
  intro hnot
  rw [hgives i earlier hearlier hnot, hgives k columns hnamed hunnamed,
    Value.integer.injEq] at hsame
  have hmod := congrArg (fun n : Int64 => n.toBitVec.toNat) hsame
  simp only [Int64.toBitVec_ofNat', BitVec.toNat_ofNat] at hmod
  rw [Nat.pow_eq]
  omega

/-- The first row is given the number that the column has for the second one. -/
theorem insertRun_given_number : ∃ db : Database, InsertRun "t" db [["id"], ["b"]] ∧
    db.tables.get? "t" = some ⟨[⟨"id", .integer, ⟨false, true, true⟩, .null, 2⟩, .plain "b" .text],
      [.owned [.integer 1, .null], .owned [.integer 1, .text "x"]]⟩ := by
  let create := "CREATE TABLE t (id INTEGER PRIMARY KEY AUTOINCREMENT, b TEXT)"
  let given := "INSERT INTO t (id) VALUES (1)"
  let automatic := "INSERT INTO t (b) VALUES ('x')"
  let records : Records CellRecord := ⟨[]⟩
  have hcreate : Statement.CreatesTable create "t" :=
    ⟨_, _, eq_ok_of_run' (by decide +kernel), eq_ok_of_run' (by decide +kernel)⟩
  have hgiven : Statement.InsertsInto given "t" ["id"] :=
    ⟨_, _, eq_ok_of_run' (by decide +kernel), eq_ok_of_run' (by decide +kernel)⟩
  have hautomatic : Statement.InsertsInto automatic "t" ["b"] :=
    ⟨_, _, eq_ok_of_run' (by decide +kernel), eq_ok_of_run' (by decide +kernel)⟩
  have hanswers : (standard.query records create []).answer = .ok .empty ∧
      ((standard.query records create []).database.query records given []).answer
        = .ok (.report "inserted_rows" 1) ∧
      (((standard.query records create []).database.query records given []).database.query
        records automatic []).answer = .ok (.report "inserted_rows" 1) := by
    decide +kernel
  refine ⟨_, .inserted records [] (.inserted records [] (.created records [] hcreate hanswers.1)
    hgiven hanswers.2.1) hautomatic hanswers.2.2, ?_⟩
  decide +kernel

/-- The second row holds its number of rows before, which is the number given to the first one. -/
theorem automatic_value_of_insertRun_given : ∃ db t, InsertRun "t" db [["id"], ["b"]] ∧
    db.tables.get? "t" = some t ∧ ¬t.Names ["b"] 0 ∧
    t.cell (⟨[]⟩ : Records CellRecord) 1 0 = .integer 1 ∧
    t.cell (⟨[]⟩ : Records CellRecord) 0 0 = .integer 1 ∧ t.Names ["id"] 0 := by
  obtain ⟨db, hrun, hget⟩ := insertRun_given_number
  obtain ⟨t, hstored, -, hcells⟩ := automatic_value_of_insertRun hrun
  cases hget.symm.trans hstored
  obtain ⟨hsecond, hearlier⟩ :=
    hcells (⟨[]⟩ : Records CellRecord) 0 1 _ ["b"] rfl rfl rfl (by decide)
  refine ⟨db, _, hrun, hget, by decide, hsecond, rfl, ?_⟩
  exact (hearlier 0 ["id"] (by decide) rfl rfl).resolve_right (by decide)

/-- An automatic column hands out a number that it already holds. -/
theorem not_automatic_value_unused :
    ¬∀ (name : String) (db : Database) (named : List (List String)), InsertRun name db named →
      ∀ t, db.tables.get? name = some t → ∀ (j k : Nat) (c : Column) (columns : List String),
        t.columns[j]? = some c → c.type = .integer → c.flags.autoIncrement = true →
        named[k]? = some columns → ¬t.Names columns j →
        ∀ i, i < k →
          t.cell (⟨[]⟩ : Records CellRecord) i j ≠ t.cell (⟨[]⟩ : Records CellRecord) k j := by
  intro h
  obtain ⟨db, hrun, hget⟩ := insertRun_given_number
  exact h "t" db _ hrun _ hget 0 1 _ ["b"] rfl rfl rfl rfl (by decide) 0 (by decide) rfl

end Database

end OnePassSql

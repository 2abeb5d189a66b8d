import OnePassSql.Proofs.Statement.Records

/-!
Records behind linked rows over a query. A SELECT without UNION leaves them exactly as they are, and
one with UNION tells them of columns at most. What they show is left as it is by every SELECT
exactly if it does not depend on what they are told.
-/

namespace OnePassSql

open Step

variable {ρ : Type}

/-! ## A compound of two plain cores -/

theorem Table.filterMap_getElem?_range {α : Type} (xs : List α) :
    (List.range xs.length).filterMap (fun i => xs[i]?) = xs := by
  induction xs with
  | nil => rfl
  | cons x xs ih => simpa [List.range_succ_eq_map, List.filterMap_map, Function.comp_def] using ih

/-- `SELECT *` without a predicate takes the rows as they are. -/
theorem Table.extract_all [Record ρ] (records : Records ρ) (t : Table) :
    t.extract records none none = .ok ⟨t.columns.map Column.fresh, t.rows⟩ := by
  have hrows := filterMap_getElem?_range t.rows
  simp [extract, rowsWhere, hrows, bind, Except.bind, pure, Except.pure]

namespace Select

open Parse Statement

theorem lift_apply {α : Type} {step : Parse α} {p q : Parser} {a : α} (h : step p = .ok a q)
    (db : Database) (records : Records ρ) :
    (liftM step : Statement ρ α) ⟨p, db, records⟩ = .ok a ⟨q, db, records⟩ :=
  parsing_eq_ok.mpr ⟨q, h, rfl⟩

/-- `* FROM name` is read, and no clause behind it. -/
inductive ReadsStar : Parser → String → Parser → Prop where
  | intro {p p₁ p₂ p₃ p₄ p₅ p₆ p₇ p₈ q : Parser} {name : String} :
      acceptOne? (plainWords ["ALL", "DISTINCT"]) p = .ok none p₁ →
      accept "*" p₁ = .ok true p₂ → accept "FROM" p₂ = .ok true p₃ →
      accept "(" p₃ = .ok false p₄ → expectName p₄ = .ok name p₅ → accept "AS" p₅ = .ok false p₆ →
      joinStart? p₆ = .ok none p₇ → accept "WHERE" p₇ = .ok false p₈ →
      accept "GROUP" p₈ = .ok false q → ReadsStar p name q

theorem resultColumns_of_star (b : Bindings) {p q : Parser} (h : accept "*" p = .ok true q) :
    resultColumns b p = .ok none q := by
  rw [resultColumns, bind_apply_ok h]
  rfl

theorem optionalExpression_of_not (b : Bindings) {keyword : String} {p q : Parser}
    (h : accept keyword p = .ok false q) : optionalExpression keyword b p = .ok none q := by
  rw [optionalExpression, bind_apply_ok h]
  rfl

theorem grouping_of_not {p q : Parser} (h : accept "GROUP" p = .ok false q) :
    grouping p = .ok ⟨⟩ q := by
  rw [grouping, bind_apply_ok h]
  rfl

theorem ReadsStar.length_pos {p q : Parser} {name : String} (h : ReadsStar p name q) :
    0 < p.ahead.length := by
  obtain ⟨hall, hstar, -, -, -, -, -, -, -⟩ := h
  rcases acceptOne?_eq_ok hall with ⟨-, rfl⟩ | ⟨a, first, rest, hfound, -⟩
  · rcases accept_eq_ok hstar with ⟨hfalse, -⟩ | ⟨-, first, rest, hahead, -⟩
    · cases hfalse
    · simp [hahead, TokenStream.length]
  · cases hfound

variable [Record ρ]

theorem sourceWithin_name {p₁ p₂ p₃ p₄ : Parser} {name : String}
    (hnested : accept "(" p₁ = .ok false p₂) (hname : expectName p₂ = .ok name p₃)
    (has : accept "AS" p₃ = .ok false p₄) {db : Database} {t : Table}
    (ht : db.tables.get? name = some t) (records : Records ρ) (budget : Nat) :
    sourceWithin (budget + 1) ⟨p₁, db, records⟩ = .ok t ⟨p₄, db, records⟩ := by
  rw [sourceWithin, bind_apply_ok (lift_apply hnested db records)]
  dsimp only
  rw [if_neg Bool.false_ne_true, bind_apply_ok (lift_apply hname db records),
    bind_apply_ok (table_apply ht), bind_apply_ok (lift_apply has db records)]
  rfl

theorem joinedWithin_name {p₁ p₂ p₃ p₄ p₅ : Parser} {name : String}
    (hnested : accept "(" p₁ = .ok false p₂) (hname : expectName p₂ = .ok name p₃)
    (has : accept "AS" p₃ = .ok false p₄) (hjoin : joinStart? p₄ = .ok none p₅) {db : Database}
    {t : Table} (ht : db.tables.get? name = some t) (records : Records ρ) (budget : Nat) :
    joinedWithin (budget + 2) ⟨p₁, db, records⟩ = .ok t ⟨p₅, db, records⟩ := by
  rw [joinedWithin, bind_apply_ok (sourceWithin_name hnested hname has ht records budget),
    bind_apply_ok (lift_apply hjoin db records)]
  rfl

theorem coreWithin_star {p q : Parser} {name : String} (h : ReadsStar p name q) {db : Database}
    {t : Table} (ht : db.tables.get? name = some t) (records : Records ρ) (budget : Nat) :
    coreWithin (budget + 3) ⟨p, db, records⟩
      = .ok ⟨t.columns.map Column.fresh, t.rows⟩ ⟨q, db, records⟩ := by
  obtain ⟨hall, hstar, hfrom, hnested, hname, has, hjoin, hwhere, hgroup⟩ := h
  have hcolumns := resultColumns_of_star db.bindings hstar
  have hpredicate := optionalExpression_of_not db.bindings hwhere
  have hsource := joinedWithin_name hnested hname has hjoin ht records budget
  rw [coreWithin, bind_apply_ok (lift_apply hall db records), bind_apply_ok (bindings_apply _),
    bind_apply_ok (lift_apply hcolumns db records), bind_apply_ok (lift_apply hfrom db records)]
  dsimp only
  rw [if_pos rfl, bind_apply_ok hsource, bind_apply_ok (bindings_apply _),
    bind_apply_ok (lift_apply hpredicate db records),
    bind_apply_ok (lift_apply (grouping_of_not hgroup) db records), extract,
    bind_apply_ok (get_apply _), Table.extract_all]
  rfl

end Select

/-! ## Queries -/

namespace Database

open Parse Statement

variable [Record ρ]

theorem told_select (db : Database) (records : Records ρ) {sql : String} {p : Parser}
    (hword : expectOne firstWords (.ofText sql) = .ok .select p) (params : List Value) :
    records.Told (db.query records sql params).records := by
  cases hdropped : db.dropped with
  | true =>
      rw [query_of_dropped hdropped]
      exact .refl
  | false =>
      have htells := Select.respects_complete_at Select.tells_parsing Select.tells_select
        (s := ⟨.ofText sql, db.bindAll params, records⟩) hword
      rw [records_query_of_open hdropped]
      exact htells

/-- A SELECT in which UNION is not written leaves all records exactly as they are, of whatever kind
they are. -/
theorem records_select_of_lacks (db : Database) (records : Records ρ) {sql : String} {p : Parser}
    (hword : expectOne firstWords (.ofText sql) = .ok .select p)
    (hlacks : (TokenStream.ofText sql).Lacks "UNION") (params : List Value) :
    (db.query records sql params).records = records := by
  cases hdropped : db.dropped with
  | true => rw [query_of_dropped hdropped]
  | false =>
      have hkeeps := Select.respects_complete_at Select.keeps_parsing Select.keeps_select
        (s := ⟨.ofText sql, db.bindAll params, records⟩) hword
      rw [records_query_of_open hdropped]
      exact hkeeps.2 hlacks

/-- The text reads as `SELECT * FROM u UNION SELECT * FROM t`, for the names `u` and `t`. -/
inductive ReadsUnion (sql u t : String) : Prop where
  | intro {p p₁ p₂ p₃ p₄ p₅ p₆ : Parser} :
      expectOne firstWords (.ofText sql) = .ok .select p → Select.ReadsStar p u p₁ →
      Select.compound? p₁ = .ok (some .union) p₂ → expect "SELECT" p₂ = .ok ⟨⟩ p₃ →
      Select.ReadsStar p₃ t p₄ → Select.compound? p₄ = .ok none p₅ →
      expectEnd p₅ = .ok ⟨⟩ p₆ → ReadsUnion sql u t

theorem readsUnion : ReadsUnion "SELECT * FROM u UNION SELECT * FROM t" "u" "t" := by
  -- the text is cut into tokens once, and not again for every step of the parser
  have hlexed : Parser.ofText "SELECT * FROM u UNION SELECT * FROM t" =
      ⟨.token ⟨.word, "SELECT", 0⟩ (.token ⟨.symbol, "*", 7⟩ (.token ⟨.word, "FROM", 9⟩
        (.token ⟨.word, "u", 14⟩ (.token ⟨.word, "UNION", 16⟩ (.token ⟨.word, "SELECT", 22⟩
          (.token ⟨.symbol, "*", 29⟩ (.token ⟨.word, "FROM", 31⟩ (.token ⟨.word, "t", 36⟩
            (.done 37))))))))), 0, true⟩ := by
    decide +kernel
  refine .intro ((congrArg (expectOne firstWords) hlexed).trans (eq_ok_of_run' ?_))
    (.intro (eq_ok_of_run' ?_) (eq_ok_of_run' ?_) (eq_ok_of_run' ?_) (eq_ok_of_run' ?_)
      (eq_ok_of_run' ?_) (eq_ok_of_run' ?_) (eq_ok_of_run' ?_) (eq_ok_of_run' ?_)
      (eq_ok_of_run' ?_)) (eq_ok_of_run' ?_) (eq_ok_of_run' ?_)
    (.intro (eq_ok_of_run' ?_) (eq_ok_of_run' ?_) (eq_ok_of_run' ?_) (eq_ok_of_run' ?_)
      (eq_ok_of_run' ?_) (eq_ok_of_run' ?_) (eq_ok_of_run' ?_) (eq_ok_of_run' ?_)
      (eq_ok_of_run' ?_)) (eq_ok_of_run' ?_) (eq_ok_of_run' ?_)
  all_goals decide +kernel

/-- A union tells the records behind the rows of its second table of the columns of its first. -/
theorem records_query_of_readsUnion {sql : String} {u t : String} (hsql : ReadsUnion sql u t)
    {db : Database} (hopen : db.dropped = false) {first second : Table}
    (hu : db.tables.get? u = some first) (ht : db.tables.get? t = some second)
    (hrows : first.rows = []) (records : Records ρ) (params : List Value) :
    (db.query records sql params).records = records.tellAll second.linkedRecords
      second.columns.length (first.columns.map Column.fresh) := by
  obtain @⟨p, p₁, p₂, p₃, p₄, p₅, p₆, hword, hfirst, hunion, hnext, hsecond, hnone, hend⟩ := hsql
  have hpos := hfirst.length_pos
  obtain ⟨n, hn⟩ : ∃ n, p.ahead.length = n + 1 := ⟨p.ahead.length - 1, by omega⟩
  let shown : Table := ⟨second.columns.map Column.fresh, second.rows⟩
  let before : Table := ⟨first.columns.map Column.fresh, first.rows⟩
  let told := records.tellAll second.linkedRecords second.columns.length before.columns
  obtain ⟨t', hadded⟩ := Edit.addColumns_tells before.columns shown records
  have hwidth : shown.columns.length = second.columns.length := List.length_map _
  rw [hwidth] at hadded
  have hunite : Select.combine shown (some (before, .union)) ⟨p₄, db.bindAll params, records⟩
      = .ok t' ⟨p₄, db.bindAll params, told⟩ := by
    have hnothing : before.rows.length = 0 := by simp [before, hrows]
    rw [Select.combine, Select.unite, Edit.union, bind_apply_ok hadded, hnothing]
    rfl
  have hatEnd : Select.AtEnd ⟨p₅, db.bindAll params, told⟩ := ⟨p₆, hend⟩
  have hu' : (db.bindAll params).tables.get? u = some first := hu
  have ht' : (db.bindAll params).tables.get? t = some second := ht
  have hlast := Select.selectWithin_last (Select.coreWithin_star hsecond ht' records (4 * n + 3))
    hunite (Select.lift_apply hnone _ _) (Select.ordering_of_atEnd hatEnd)
    (Select.limit_of_atEnd hatEnd)
  have hnothing : Select.combine before none ⟨p₁, db.bindAll params, records⟩ = .ok before _ := rfl
  have hrun := Select.selectWithin_more (Select.coreWithin_star hfirst hu' records (4 * n + 4))
    hnothing (Select.lift_apply hunion _ _) (Select.lift_apply hnext _ _) hlast hatEnd
  have hbudget : 4 * p.ahead.length + 4 = 4 * n + 7 + 1 := by omega
  rw [query_eq_of_select hopen hword (hbudget ▸ hrun) hatEnd]

/-! ## Which records every SELECT leaves as they are -/

/-- A database whose table `t` shows the record 0 behind `width` columns, and whose table `u` has
one column with the default `v`. -/
def showing (width : Nat) (v : Value) : Database :=
  { standard with
    tables := (NameMap.empty.insert "t" ⟨List.replicate width (.plain "a" .none),
      [.linked 0]⟩).insert "u" ⟨[⟨"b", .none, .empty, v, 0⟩], []⟩ }

theorem records_showing (r : ρ) (width : Nat) (v : Value) :
    ((showing width v).query ⟨[r]⟩ "SELECT * FROM u UNION SELECT * FROM t" []).records
      = ⟨[Record.addColumn r width v]⟩ := by
  have hu : (showing width v).tables.get? "u" = some ⟨[⟨"b", .none, .empty, v, 0⟩], []⟩ := by
    simp [showing, NameMap.get?_insert]
  have ht : (showing width v).tables.get? "t"
      = some ⟨List.replicate width (.plain "a" .none), [.linked 0]⟩ := by
    simp [showing, NameMap.get?_insert]
  rw [records_query_of_readsUnion readsUnion rfl hu ht rfl, List.length_replicate]
  rfl

/-- Of a kind of records that are still of the kind once they are told of a column, every SELECT, in
every state and also if it faults, leaves all that they show as it is, exactly if telling does. -/
theorem select_keeps_records_iff {P : ρ → Prop}
    (hkind : ∀ r column v, P r → P (Record.addColumn r column v)) :
    (∀ (db : Database) (records : Records ρ) (sql : String) (params : List Value) (p : Parser),
      expectOne firstWords (.ofText sql) = .ok .select p →
      ∀ (id : RecordId) (r : ρ), records.list[id]? = some r → P r →
        ∀ column, (db.query records sql params).records.cell id column = Record.get r column) ↔
    ∀ r, P r → ∀ told v column,
      Record.get (Record.addColumn r told v) column = Record.get r column := by
  constructor
  · intro h r hr told v column
    obtain ⟨hword, -⟩ := readsUnion
    have hkept := h (showing told v) ⟨[r]⟩ _ [] _ hword 0 r rfl hr column
    rw [records_showing] at hkept
    exact hkept
  · intro h db records sql params p hword id r hr hP column
    exact (told_select db records hword params).cell_eq hkind h hr hP column

/-- A database with a table of one column and one row, which is linked to the record 0. -/
def linkedDatabase : Database :=
  (standard.query (⟨[]⟩ : Records CellRecord) "CREATE TABLE t (a INTEGER)" []).database.change
    (.putTable "t" ⟨[.plain "a" .integer], [.linked 0]⟩)

theorem reachable_linkedDatabase : Reachable linkedDatabase := by
  have hcreated : Reachable (standard.query (⟨[]⟩ : Records CellRecord)
      "CREATE TABLE t (a INTEGER)" []).database := (Reachable.create _ _).query _ _ _
  have hstored : (standard.query (⟨[]⟩ : Records CellRecord) "CREATE TABLE t (a INTEGER)"
      []).database.tables.get? "t" = some ⟨[.plain "a" .integer], []⟩ := by
    decide +kernel
  exact hcreated.linkRows (linkRows_of_stored (by decide +kernel) hstored [0])

/-- A SELECT whose inner union has the linked row in its later core. -/
def nestedUnion : String := "SELECT 1 FROM (SELECT 5 UNION SELECT * FROM t)"

theorem expectOne_nestedUnion :
    ∃ p, expectOne firstWords (.ofText nestedUnion) = .ok .select p :=
  ⟨_, eq_ok_of_run' (by decide +kernel)⟩

/-- A record of fixed shape keeps the value of its second cell. -/
theorem select_keeps_records_iff_fixed :
    (linkedDatabase.query (⟨[⟨[.integer 1, .integer 2], false⟩]⟩ : Records CellRecord) nestedUnion
      []).records.cell 0 1 = .integer 2 := by
  obtain ⟨p, hword⟩ := expectOne_nestedUnion
  have hkind : ∀ (r : CellRecord) (column : Nat) (v : Value), r.growing = false →
      (Record.addColumn r column v).growing = false := by
    intro r column v hr
    simp [Record.addColumn, hr]
  have hsame : ∀ r : CellRecord, r.growing = false → ∀ told v column,
      Record.get (Record.addColumn r told v) column = Record.get r column := by
    intro r hr told v column
    simp [Record.addColumn, hr]
  exact (select_keeps_records_iff hkind).mpr hsame linkedDatabase _ nestedUnion [] p hword 0
    ⟨[.integer 1, .integer 2], false⟩ rfl rfl 1

/-- A record that takes what it is told loses the value of its second cell. -/
theorem not_select_keeps_records : ¬ ∀ (db : Database) (records : Records CellRecord) (sql : String)
    (params : List Value) (p : Parser), Reachable db →
      expectOne firstWords (.ofText sql) = .ok .select p →
      ∀ (id : RecordId) (r : CellRecord), records.list[id]? = some r →
        ∀ column, (db.query records sql params).records.cell id column = Record.get r column := by
  intro h
  obtain ⟨p, hword⟩ := expectOne_nestedUnion
  have hkept := h linkedDatabase ⟨[⟨[.integer 1, .integer 2], true⟩]⟩ nestedUnion [] p
    reachable_linkedDatabase hword 0 _ rfl 1
  revert hkept
  decide +kernel

end Database

end OnePassSql

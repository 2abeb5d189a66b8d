import OnePassSql.Proofs.Parser.Clauses
import OnePassSql.Proofs.Statement.Reading
import OnePassSql.Proofs.Table.Writing
import OnePassSql.Statement.Insert

/-!
INSERT from its text to the stored row. Its values are read one after the other, each evaluated and
brought to its column as soon as it is there; only then is the row written, and writing what was
brought to its column cannot fault.
-/

namespace OnePassSql

open Step

namespace Table

/-- The first column of a name declares the type of that name. -/
theorem columnType_eq_ok {t : Table} {name : String} {type : ColumnType}
    (h : t.columnType name = .ok type) :
    ∃ i c, t.columnIndex? name = some i ∧ t.columns[i]? = some c ∧ c.type = type := by
  unfold columnType at h
  cases hfind : t.columns.find? (fun c => c.name == name) with
  | none => simp [hfind] at h
  | some c =>
      simp only [hfind, Except.ok.injEq] at h
      obtain ⟨hname, i, hi, hc, hbefore⟩ := List.find?_eq_some_iff_getElem.mp hfind
      refine ⟨i, c, ?_, List.getElem?_eq_some_iff.mpr ⟨hi, hc⟩, h⟩
      rw [columnIndex?, List.findIdx?_eq_some_iff_getElem]
      exact ⟨hi, hc ▸ hname, fun j hj => by simpa using hbefore j hj⟩

end Table

namespace Statement

open Parse

variable {ρ : Type}

/-! ## Reading the values -/

theorem insertedCell_eq_ok {t : Table} {table column : String} {v : Value} {cell : Nat × Value}
    (h : insertedCell t table column v = .ok cell) : t.PutsValue (column, v) cell := by
  unfold insertedCell at h
  cases hindex : t.columnIndex? column with
  | none => simp [hindex] at h
  | some i =>
      rw [hindex] at h
      obtain ⟨type, htype, hrest⟩ := Result.bind_eq_ok.mp h
      obtain ⟨w, hw, hcell⟩ := Result.bind_eq_ok.mp hrest
      cases hcell
      obtain ⟨i', c, hi', hc, rfl⟩ := Table.columnType_eq_ok htype
      rw [hindex] at hi'
      cases hi'
      exact ⟨hindex, rfl, c, hc, hw⟩

/-- Reading the values takes the tokens of expressions with commas between them. Each value went
into the column that stands at its place. -/
theorem insertedCells_eq_ok {b : Bindings} {t : Table} {table : String} {columns : List String}
    {p q : Parser} {cells : List (Nat × Value)} {left : List String} {budget : Nat}
    (h : insertedCells b t table columns p = .ok (cells, left) q)
    (hbudget : p.ahead.length < budget) :
    ∃ named exprs values, columns = named ++ left ∧ named.length = values.length ∧ values ≠ [] ∧
      separated (boundExpression b) budget p = .ok exprs q ∧
      exprs.mapM (Expr.eval t.scope) = .ok values ∧
      List.Forall₂ t.PutsValue (named.zip values) cells := by
  induction columns generalizing p cells budget with
  | nil => cases h
  | cons column columns ih =>
      cases budget with
      | zero => omega
      | succ budget =>
          obtain ⟨e, p₁, he, hvalue⟩ := bind_eq_ok.mp h
          obtain ⟨v, p₂, hsettled, hinserted⟩ := bind_eq_ok.mp hvalue
          obtain ⟨hv, rfl⟩ := settle_eq_ok.mp hsettled
          obtain ⟨cell, p₃, hbrought, hmore⟩ := bind_eq_ok.mp hinserted
          obtain ⟨hcell, rfl⟩ := settle_eq_ok.mp hbrought
          obtain ⟨more, p₄, hcomma, hrest⟩ := bind_eq_ok.mp hmore
          have hfirst : t.PutsValue (column, v) cell := insertedCell_eq_ok hcell
          rcases accept_eq_ok hcomma with ⟨rfl, rfl⟩ | ⟨rfl, first, rest, hcommaToken, rfl⟩
          · cases hrest
            refine ⟨[column], [e], [v], rfl, rfl, by simp, ?_, ?_, .cons hfirst .nil⟩
            · rw [separated, bind_apply_ok he, bind_apply_ok hcomma]
              rfl
            · exact Result.mapM_eq_ok.mpr (.cons hv .nil)
          · obtain ⟨⟨cells', left'⟩, p₅, hcells, hgiven⟩ := bind_eq_ok.mp hrest
            cases hgiven
            -- the comma took a token, so the rest stays within the budget
            have hshorter : rest.length < budget := by
              have hle := TokenStream.LeadsTo.length_le ((movesOn_boundExpression b).ok he)
              rw [hcommaToken, TokenStream.length] at hle
              omega
            obtain ⟨named, exprs, values, rfl, hlength, -, hexprs, hvalues, hforall⟩ :=
              ih hcells hshorter
            refine ⟨column :: named, e :: exprs, v :: values, rfl, by simp [hlength], by simp, ?_,
              ?_, .cons hfirst hforall⟩
            · rw [separated, bind_apply_ok he, bind_apply_ok hcomma]
              change (separated (boundExpression b) budget >>= fun rest => pure (e :: rest)) _ = _
              rw [bind_apply_ok hexprs]
              rfl
            · exact Result.mapM_eq_ok.mpr (.cons hv (Result.mapM_eq_ok.mp hvalues))

theorem table_eq_ok {name : String} {s s' : Session ρ} {t : Table}
    (h : table name s = .ok t s') : s' = s ∧ s.database.tables.get? name = some t := by
  obtain ⟨s₁, s₂, hget, hsettle⟩ := bind_eq_ok.mp h
  cases hget
  obtain ⟨hfound, rfl⟩ := settle_eq_ok.mp hsettle
  unfold Database.table at hfound
  split at hfound
  · cases hfound
    exact ⟨rfl, by assumption⟩
  · cases hfound

/-- What an INSERT says when it was read up to the parser `p'`: a stored table, the names of columns
with an expression for each, and the values of these. -/
structure InsertReading (s : Session ρ) (name : String) (t : Table) (columns : List String)
    (exprs : List Expr) (values : List Value) (p' : Parser) : Prop where
  stored : s.database.tables.get? name = some t
  tokens : ∃ p q, insertTarget s.parser = .ok (name, columns) p ∧
    commaSeparated (boundExpression s.database.bindings) p = .ok exprs q ∧
    expect ")" q = .ok ⟨⟩ p'
  evaluated : exprs.mapM (Expr.eval t.scope) = .ok values
  length_eq : columns.length = values.length
  nonempty : values ≠ []

theorem insertedRow_eq_ok {s s' : Session ρ} {name : String} {cells : List (Nat × Value)}
    (h : insertedRow s = .ok (name, cells) s') :
    s' = { s with parser := s'.parser } ∧ ∃ t columns exprs values,
      InsertReading s name t columns exprs values s'.parser ∧
        List.Forall₂ t.PutsValue (columns.zip values) cells := by
  obtain ⟨⟨name', columns⟩, s₁, htarget, h₁⟩ := bind_eq_ok.mp h
  obtain ⟨p, hp, rfl⟩ := parsing_eq_ok.mp htarget
  obtain ⟨t, s₂, htable, h₂⟩ := bind_eq_ok.mp h₁
  obtain ⟨rfl, hstored⟩ := table_eq_ok htable
  obtain ⟨b, s₃, hbindings, h₃⟩ := bind_eq_ok.mp h₂
  cases hbindings
  obtain ⟨⟨cells', left⟩, s₄, hcells, h₄⟩ := bind_eq_ok.mp h₃
  obtain ⟨q, hq, rfl⟩ := parsing_eq_ok.mp hcells
  obtain ⟨_, s₅, hclose, h₅⟩ := bind_eq_ok.mp h₄
  obtain ⟨r, hr, rfl⟩ := parsing_eq_ok.mp hclose
  cases left with
  | cons column left => cases h₅
  | nil =>
      cases h₅
      obtain ⟨named, exprs, values, rfl, hlength, hne, hexprs, hvalues, hputs⟩ :=
        insertedCells_eq_ok hq (Nat.lt_succ_self _)
      rw [List.append_nil] at hp
      have hread : commaSeparated (boundExpression s.database.bindings) p = .ok exprs q := by
        rw [commaSeparated, bind_apply_ok (get_apply p)]
        exact hexprs
      exact ⟨rfl, t, named, exprs, values, ⟨hstored, ⟨p, q, hp, hread, hr⟩, hvalues, hlength, hne⟩,
        hputs⟩

/-! ## Writing the row -/

theorem table_apply {name : String} {s : Session ρ} {t : Table}
    (h : s.database.tables.get? name = some t) : table name s = .ok t s := by
  rw [table, bind_apply_ok (get_apply s), Database.table, h]
  rfl

theorem edit_apply {name : String} {s : Session ρ} {t : Table} {e : Edit ρ Unit} {sheet : Sheet ρ}
    (hstored : s.database.tables.get? name = some t)
    (he : e ⟨t, s.records⟩ = .ok ⟨⟩ sheet) :
    edit name e s = .ok ⟨⟩ (withSheet name s sheet) := by
  refine bind_eq_ok.mpr ⟨t, s, table_apply hstored, ?_⟩
  rw [he]

theorem InsertReading.cells_ne_nil {s : Session ρ} {name : String} {t : Table}
    {columns : List String} {exprs : List Expr} {values : List Value} {p' : Parser}
    {cells : List (Nat × Value)} (h : InsertReading s name t columns exprs values p')
    (hputs : List.Forall₂ t.PutsValue (columns.zip values) cells) : cells ≠ [] := by
  rintro rfl
  have hlength := hputs.length_eq
  rw [List.length_zip, h.length_eq, Nat.min_self] at hlength
  exact h.nonempty (List.length_eq_zero_iff.mp hlength)

/-- Once an INSERT was read, writing its row goes through. -/
theorem insert_of_insertedRow [Record ρ] {s s' : Session ρ} {name : String} {t : Table}
    {columns : List String} {exprs : List Expr} {values : List Value} {cells : List (Nat × Value)}
    (h : insertedRow s = .ok (name, cells) s')
    (hreading : InsertReading s name t columns exprs values s'.parser)
    (hputs : List.Forall₂ t.PutsValue (columns.zip values) cells) :
    insert s = .ok (.report "inserted_rows" 1)
      (withSheet name s' ⟨t.appendRow cells, s'.records⟩) := by
  have hstored : s'.database.tables.get? name = some t := by
    rw [(insertedRow_eq_ok h).1]
    exact hreading.stored
  obtain ⟨cell, rest, rfl⟩ := List.exists_cons_of_ne_nil (hreading.cells_ne_nil hputs)
  rw [insert, bind_apply_ok h]
  dsimp only
  rw [bind_apply_ok (edit_apply hstored
    (Edit.appendRow_apply (Table.brings_of_putsValue hputs) s'.records)), pure_apply]

/-! ## The row that an INSERT adds -/

/-- What an INSERT of `values` into the named `columns` makes of the table `t`: one row more, with
these `cells`. -/
structure InsertSpec (t : Table) (columns : List String) (values : List Value) (t' : Table)
    (cells : List Value) : Prop where
  rows : t'.rows = t.rows ++ [.owned cells]
  width : cells.length = t.columns.length
  /-- Of the values for names that mean the column the last counts. -/
  named (i j : Nat) (name : String) (v : Value) (c : Column) :
    columns[i]? = some name → values[i]? = some v →
    t.columnIndex? name = some j → t.columns[j]? = some c →
    (∀ k later, i < k → columns[k]? = some later → t.columnIndex? later ≠ some j) →
    ∃ w, v.coerce c.type = .ok w ∧ cells[j]? = some w
  unnamed (j : Nat) (c : Column) :
    t.columns[j]? = some c → (∀ name ∈ columns, t.columnIndex? name ≠ some j) →
    cells[j]? = some (if c.flags.autoIncrement then .integer (Int64.ofNat c.counter) else c.default)
  columns_eq : t'.columns = t.columns.map fun c =>
    if c.flags.autoIncrement then { c with counter := c.counter + 1 } else c

theorem insertSpec_appendRow {t : Table} {columns : List String} {values : List Value}
    {cells : List (Nat × Value)} (h : List.Forall₂ t.PutsValue (columns.zip values) cells) :
    InsertSpec t columns values (t.appendRow cells) (Table.writeCells t.freshCells cells) := by
  have hbound : ∀ write ∈ cells, write.1 < t.freshCells.length := by
    intro write hwrite
    rw [Table.length_freshCells]
    exact (List.forall₂_same.mp (Table.brings_of_putsValue h) write hwrite).lt_length
  -- a write comes from a name that means its column
  have hsource : ∀ (k : Nat) (write : Nat × Value), cells[k]? = some write →
      ∃ name, columns[k]? = some name ∧ t.columnIndex? name = some write.1 := by
    intro k write hwrite
    obtain ⟨⟨name, v⟩, hentry, hputs⟩ := Result.exists_left_of_forall₂ h hwrite
    exact ⟨name, (List.getElem?_zip_eq_some.mp hentry).1, hputs.1⟩
  refine ⟨rfl, ?_, ?_, ?_, rfl⟩
  · rw [Table.length_writeCells hbound, Table.length_freshCells]
  · intro i j name v c hname hv hindex hc hlast
    obtain ⟨⟨j', w⟩, hwrite, hindex', hbrings⟩ := Result.exists_right_of_forall₂ h
      (List.getElem?_zip_eq_some.mpr ⟨hname, hv⟩ : (columns.zip values)[i]? = some (name, v))
    have hj : j = j' := Option.some.inj (hindex.symm.trans hindex')
    subst hj
    obtain ⟨-, c', hc', hw⟩ := hbrings
    cases hc.symm.trans hc'
    refine ⟨w, hw, ?_⟩
    obtain ⟨hi, hget⟩ := List.getElem?_eq_some_iff.mp hwrite
    have hsplit : cells = cells.take i ++ (j, w) :: cells.drop (i + 1) := by
      rw [← hget, ← List.drop_eq_getElem_cons hi, List.take_append_drop]
    rw [hsplit] at hbound ⊢
    refine Table.getElem?_writeCells_of_last hbound fun write hmem => ?_
    obtain ⟨k, hk⟩ := List.mem_iff_getElem?.mp hmem
    rw [List.getElem?_drop] at hk
    obtain ⟨later, hlater, hmeans⟩ := hsource _ _ hk
    intro heq
    exact hlast _ later (by omega) hlater (heq ▸ hmeans)
  · intro j c hc hunnamed
    rw [Table.getElem?_writeCells_of_forall_ne hbound]
    · rw [Table.freshCells, List.getElem?_map, hc]
      rfl
    · intro write hmem heq
      obtain ⟨k, hk⟩ := List.mem_iff_getElem?.mp hmem
      obtain ⟨name, hname, hmeans⟩ := hsource k write hk
      exact hunnamed name (List.mem_of_getElem? hname) (heq ▸ hmeans)

/-- An INSERT that succeeds adds one row to the table it names, with the values it was given and
defaults and counters for the rest, and touches nothing else. -/
theorem insert_adds_row [Record ρ] {s s' : Session ρ} {answer : Table}
    (h : insert s = .ok answer s') :
    ∃ name t t' columns exprs values cells,
      InsertReading s name t columns exprs values s'.parser ∧
      s'.database.tables.get? name = some t' ∧ InsertSpec t columns values t' cells ∧
      (∀ other, other ≠ name →
        s'.database.tables.get? other = s.database.tables.get? other) ∧
      s'.database = { s.database with tables := s'.database.tables } ∧
      s'.records = s.records ∧ answer = .report "inserted_rows" 1 := by
  obtain ⟨⟨name, cells⟩, s₁, hread, -⟩ := bind_eq_ok.mp h
  obtain ⟨hkept, t, columns, exprs, values, hreading, hputs⟩ := insertedRow_eq_ok hread
  have hwritten := insert_of_insertedRow hread hreading hputs
  rw [hkept] at hwritten
  cases h.symm.trans hwritten
  refine ⟨name, t, t.appendRow cells, columns, exprs, values, _, hreading, ?_,
    insertSpec_appendRow hputs, ?_, rfl, rfl, rfl⟩
  · exact (NameMap.get?_insert _ _ _ _).trans (if_pos rfl)
  · intro other hother
    exact (NameMap.get?_insert _ _ _ _).trans (if_neg hother)

/-- Of two values for one column the second counts; a counter and a default fill the others. -/
theorem insert_adds_row_repeated :
    ∃ answer s', insert (⟨.ofText "INTO t (c, c) VALUES (1, '7')",
        Database.standard.change (.putTable "t" ⟨[⟨"a", .integer, ⟨false, false, true⟩, .null, 5⟩,
          ⟨"b", .text, .empty, .text "x", 0⟩, .plain "c" .integer], []⟩), ⟨[]⟩⟩ :
        Session CellRecord) = .ok answer s' ∧
      (s'.database.tables.get? "t").map Table.rows
        = some [.owned [.integer 5, .text "x", .integer 7]] ∧
      ∃ name t t' columns values cells, s'.database.tables.get? name = some t' ∧
        InsertSpec t columns values t' cells := by
  have hok : (match insert (⟨.ofText "INTO t (c, c) VALUES (1, '7')",
      Database.standard.change (.putTable "t" ⟨[⟨"a", .integer, ⟨false, false, true⟩, .null, 5⟩,
        ⟨"b", .text, .empty, .text "x", 0⟩, .plain "c" .integer], []⟩), ⟨[]⟩⟩ :
      Session CellRecord) with
      | .ok _ s' => decide ((s'.database.tables.get? "t").map Table.rows
          = some [.owned [.integer 5, .text "x", .integer 7]])
      | .error _ _ => false) = true := by
    decide +kernel
  cases hrun : insert (⟨.ofText "INTO t (c, c) VALUES (1, '7')",
      Database.standard.change (.putTable "t" ⟨[⟨"a", .integer, ⟨false, false, true⟩, .null, 5⟩,
        ⟨"b", .text, .empty, .text "x", 0⟩, .plain "c" .integer], []⟩), ⟨[]⟩⟩ :
      Session CellRecord) with
  | error fault s' =>
      rw [hrun] at hok
      cases hok
  | ok answer s' =>
      rw [hrun] at hok
      obtain ⟨name, t, t', columns, exprs, values, cells, -, hstored, hspec, -⟩ :=
        insert_adds_row hrun
      exact ⟨answer, s', rfl, of_decide_eq_true hok, name, t, t', columns, values, cells, hstored,
        hspec⟩

end Statement

end OnePassSql

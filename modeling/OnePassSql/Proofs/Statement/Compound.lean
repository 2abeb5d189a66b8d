import OnePassSql.Proofs.Statement.Budget
import OnePassSql.Proofs.Statement.Selecting
import OnePassSql.Proofs.Table.Chain

/-!
Compounds of any length whose cores UNION combines. Each core is united with what the cores before
it left, so a row of an early core is copied, by the names of the columns, as often as cores
follow. The main statement, `union_reads_cores_iff`, says what is read of the result by these
names, and when that is the rows of all cores.
-/

namespace OnePassSql

open Step

/-! ## What the cores of a compound give -/

namespace Table

/-- The table has the columns of the header and holds all its rows itself. -/
structure SharesHeader (header : List (String × ColumnType)) (t : Table) : Prop where
  headings : t.columns.map Column.heading = header
  owned : ∀ row ∈ t.rows, ∃ cells, row = .owned cells

variable {header : List (String × ColumnType)} {t : Table}

theorem SharesHeader.names (h : t.SharesHeader header) :
    t.columns.map Column.name = header.map Prod.fst := by
  simpa [Function.comp_def, Column.heading] using congrArg (List.map Prod.fst) h.headings

theorem SharesHeader.rows_eq (h : t.SharesHeader header) :
    t.rows = t.cellRows.map Row.owned := by
  rw [cellRows, List.map_map]
  nth_rewrite 1 [← List.map_id t.rows]
  refine List.map_congr_left fun row hrow => ?_
  obtain ⟨cells, rfl⟩ := h.owned row hrow
  rfl

end Table

namespace Select

open Parse Statement Table

variable {ρ : Type}

/-- The end of the statement has been reached. -/
def AtEnd (s : Session ρ) : Prop := ∃ q, expectEnd s.parser = .ok ⟨⟩ q

/-- ORDER BY is not taken where the statement ends. -/
theorem ordering_of_atEnd {s : Session ρ} (h : AtEnd s) :
    (liftM ordering : Statement ρ Unit) s = .ok ⟨⟩ s := by
  obtain ⟨q, hend⟩ := h
  have haccept := accept_of_expectEnd hend "ORDER" (by decide)
  exact parsing_eq_ok.mpr ⟨s.parser, ordering_of_not haccept, rfl⟩

/-- Neither is LIMIT. -/
theorem limit_of_atEnd {s : Session ρ} (h : AtEnd s) :
    (liftM limit : Statement ρ Unit) s = .ok ⟨⟩ s := by
  obtain ⟨q, hend⟩ := h
  have haccept := accept_of_expectEnd hend "LIMIT" (by decide)
  exact parsing_eq_ok.mpr ⟨s.parser, limit_of_not haccept, rfl⟩

variable [Record ρ]

/-- The results of the cores of a compound, from its first core on. UNION or UNION ALL stands
between the cores. ORDER BY and LIMIT may follow the last, and there the statement ends. -/
inductive UnionChain : Session ρ → List Table → Session ρ → Prop where
  | last {s s₁ s₂ s₃ s₄ : Session ρ} {t : Table} : core s = .ok t s₁ →
      (liftM compound? : Statement ρ (Option Compound)) s₁ = .ok none s₂ →
      (liftM ordering : Statement ρ Unit) s₂ = .ok ⟨⟩ s₃ →
      (liftM limit : Statement ρ Unit) s₃ = .ok ⟨⟩ s₄ → AtEnd s₄ → UnionChain s [t] s₄
  | more {s s₁ s₂ s₃ s₄ : Session ρ} {t : Table} {rest : List Table} : core s = .ok t s₁ →
      (liftM compound? : Statement ρ (Option Compound)) s₁ = .ok (some .union) s₂ →
      (liftM (expect "SELECT") : Statement ρ Unit) s₂ = .ok ⟨⟩ s₃ →
      UnionChain s₃ rest s₄ → UnionChain s (t :: rest) s₄

theorem UnionChain.atEnd {s s' : Session ρ} {cores : List Table} (h : UnionChain s cores s') :
    AtEnd s' := by
  induction h with
  | last _ _ _ _ hend => exact hend
  | more _ _ _ _ ih => exact ih

/-- The last core of a compound. -/
theorem selectWithin_last {b : Nat} {left : Option (Table × Compound)}
    {s s₁ s₂ s₃ s₄ s₅ : Session ρ} {t result : Table} (hcore : coreWithin b s = .ok t s₁)
    (hcombine : combine t left s₁ = .ok result s₂)
    (hcompound : (liftM compound? : Statement ρ (Option Compound)) s₂ = .ok none s₃)
    (hordering : (liftM ordering : Statement ρ Unit) s₃ = .ok ⟨⟩ s₄)
    (hlimit : (liftM limit : Statement ρ Unit) s₄ = .ok ⟨⟩ s₅) :
    selectWithin (b + 1) left s = .ok result s₅ := by
  rw [selectWithin, bind_apply_ok hcore, bind_apply_ok hcombine, bind_apply_ok hcompound]
  dsimp only
  rw [bind_apply_ok (pure_apply result s₃), bind_apply_ok hordering, bind_apply_ok hlimit,
    pure_apply]

/-- A core that another one follows. -/
theorem selectWithin_more {b : Nat} {left : Option (Table × Compound)}
    {s s₁ s₂ s₃ s₄ s₅ : Session ρ} {t result final : Table} (hcore : coreWithin b s = .ok t s₁)
    (hcombine : combine t left s₁ = .ok result s₂)
    (hcompound : (liftM compound? : Statement ρ (Option Compound)) s₂ = .ok (some .union) s₃)
    (hselect : (liftM (expect "SELECT") : Statement ρ Unit) s₃ = .ok ⟨⟩ s₄)
    (hrest : selectWithin b (some (result, .union)) s₄ = .ok final s₅)
    (hend : AtEnd s₅) : selectWithin (b + 1) left s = .ok final s₅ := by
  rw [selectWithin, bind_apply_ok hcore, bind_apply_ok hcombine, bind_apply_ok hcompound]
  dsimp only
  rw [bind_apply_ok hselect, bind_apply_ok hrest, bind_apply_ok (ordering_of_atEnd hend),
    bind_apply_ok (limit_of_atEnd hend), pure_apply]

/-- UNION leaves records alone if no rows of the accumulated table are linked. -/
theorem combine_union {t left t' : Table} {s : Session ρ}
    (h : Edit.union left ⟨t, s.records⟩ = .ok ⟨⟩ ⟨t', s.records⟩) :
    combine t (some (left, .union)) s = .ok t' s := by
  rw [combine, unite, h]

theorem reads_core : Respects Session.ReadsTo (core : Statement ρ Table) :=
  respects_tokensLeft.bind fun _ => (reads_withinBudget _).2.1

theorem yieldsTyped_core : YieldsTyped (core : Statement ρ Table) :=
  yieldsTyped_bind respects_tokensLeft fun _ =>
    (yieldsTyped_withinBudget _).2.1

/-- From a core to the next one tokens are taken and the database stays. -/
theorem reads_between {s s₁ s₂ s₃ : Session ρ} {t : Table} {found : Option Compound}
    (hcore : core s = .ok t s₁)
    (hcompound : (liftM compound? : Statement ρ (Option Compound)) s₁ = .ok found s₂)
    (hselect : (liftM (expect "SELECT") : Statement ρ Unit) s₂ = .ok ⟨⟩ s₃) :
    s₃.tokens < s.tokens ∧ s₃.database = s.database := by
  have hread := reads_core.ok hcore
  have hword := (reads_parsing movesOn_compound?).ok hcompound
  have hnext := (reads_parsing (movesOn_expect _)).ok hselect
  have hlt := tokens_lt_of_expect hselect
  have hle := hread.tokens_le
  have hle' := hword.tokens_le
  exact ⟨by omega, hnext.2.trans (hword.2.trans hread.2)⟩

/-! ## Chains -/

variable {header : List (String × ColumnType)} {first : Table}

/-- The other cores of a compound, when `seen` are those before them, the latest first. -/
theorem selectWithin_chain (hfirst : first.columns.map Column.heading = header)
    (hdistinct : (header.map Prod.fst).Nodup) {s s' : Session ρ} {cores : List Table}
    (hchain : UnionChain s cores s') (hcores : ∀ t ∈ cores, t.SharesHeader header)
    (htyped : s.database.WellTyped) {b : Nat} (hb : 2 * s.tokens + 2 ≤ b) {left : Table}
    {seen : List Table} (hseen : seen ≠ [])
    (hleft : Accumulates first left (shownRows first seen) (behindRows first seen)) :
    ∃ result, selectWithin b (some (left, .union)) s = .ok result s' ∧
      Accumulates first result (shownRows first (cores.reverse ++ seen))
        (behindRows first (cores.reverse ++ seen)) := by
  induction hchain generalizing b left seen with
  | @last s s₁ s₂ s₃ s₄ t hcore hcompound hordering hlimit hend =>
      obtain ⟨b, rfl⟩ : ∃ n, b = n + 1 := ⟨b - 1, by omega⟩
      have ht := hcores t (List.mem_singleton.mpr rfl)
      obtain ⟨result, hunion, haccumulates⟩ := hleft.cons hseen (ht.headings.trans hfirst.symm)
        (ht.names ▸ hdistinct) ht.rows_eq (yieldsTyped_core s t s₁ htyped hcore) s₁.records
      exact ⟨result, selectWithin_last ((coreWithin_eq_core (by omega)).trans hcore)
        (combine_union hunion) hcompound hordering hlimit, haccumulates⟩
  | @more s s₁ s₂ s₃ s₄ t rest hcore hcompound hselect hchain ih =>
      obtain ⟨b, rfl⟩ : ∃ n, b = n + 1 := ⟨b - 1, by omega⟩
      have ht := hcores t List.mem_cons_self
      obtain ⟨t', hunion, haccumulates⟩ := hleft.cons hseen (ht.headings.trans hfirst.symm)
        (ht.names ▸ hdistinct) ht.rows_eq (yieldsTyped_core s t s₁ htyped hcore) s₁.records
      obtain ⟨hlt, hsame⟩ := reads_between hcore hcompound hselect
      have hbudget : 2 * s₃.tokens + 2 ≤ b := by omega
      obtain ⟨result, hrest, hall⟩ := ih (fun t' ht' => hcores t' (List.mem_cons_of_mem t ht'))
        (hsame ▸ htyped) hbudget (List.cons_ne_nil t seen) haccumulates
      refine ⟨result, selectWithin_more ((coreWithin_eq_core (by omega)).trans hcore)
        (combine_union hunion) hcompound hselect hrest hchain.atEnd, ?_⟩
      rwa [List.reverse_cons, List.append_assoc]

/-- A compound whose cores have the columns of one header succeeds, and accumulates their rows. -/
theorem selectWithin_cores (hdistinct : (header.map Prod.fst).Nodup) {s s' : Session ρ}
    {cores : List Table} (hchain : UnionChain s cores s')
    (hcores : ∀ t ∈ cores, t.SharesHeader header) (htyped : s.database.WellTyped) {b : Nat}
    (hb : 2 * s.tokens + 2 ≤ b) :
    ∃ first result, cores.head? = some first ∧ selectWithin b none s = .ok result s' ∧
      Accumulates first result (shownRows first cores.reverse)
        (behindRows first cores.reverse) := by
  obtain ⟨b, rfl⟩ : ∃ n, b = n + 1 := ⟨b - 1, by omega⟩
  cases hchain with
  | @last _ s₁ s₂ s₃ s₄ first hcore hcompound hordering hlimit hend =>
      have hfirst := hcores first (List.mem_singleton.mpr rfl)
      exact ⟨first, first, rfl, selectWithin_last ((coreWithin_eq_core (by omega)).trans hcore)
        (pure_apply first s₁) hcompound hordering hlimit,
        accumulates_self hfirst.rows_eq (yieldsTyped_core s first s₁ htyped hcore)⟩
  | @more _ s₁ s₂ s₃ s₄ first rest hcore hcompound hselect hchain =>
      have hfirst := hcores first List.mem_cons_self
      obtain ⟨hlt, hsame⟩ := reads_between hcore hcompound hselect
      have hbudget : 2 * s₃.tokens + 2 ≤ b := by omega
      obtain ⟨result, hrest, hall⟩ := selectWithin_chain hfirst.headings hdistinct hchain
        (fun t ht => hcores t (List.mem_cons_of_mem first ht)) (hsame ▸ htyped)
        hbudget (List.cons_ne_nil first [])
        (accumulates_self hfirst.rows_eq (yieldsTyped_core s first s₁ htyped hcore))
      refine ⟨first, result, rfl, selectWithin_more
        ((coreWithin_eq_core (by omega)).trans hcore) (pure_apply first s₁) hcompound hselect hrest
        hchain.atEnd, ?_⟩
      rwa [List.reverse_cons]

theorem UnionChain.wellTyped {s s' : Session ρ} {cores : List Table} (h : UnionChain s cores s')
    (htyped : s.database.WellTyped) : ∀ t ∈ cores, t.WellTyped := by
  induction h with
  | @last s s₁ _ _ _ t hcore _ _ _ _ =>
      intro t' ht'
      cases List.mem_singleton.mp ht'
      exact yieldsTyped_core s t s₁ htyped hcore
  | @more s s₁ _ _ _ t rest hcore hcompound hselect _ ih =>
      obtain ⟨-, hsame⟩ := reads_between hcore hcompound hselect
      exact List.forall_mem_cons.mpr
        ⟨yieldsTyped_core s t s₁ htyped hcore, ih (hsame ▸ htyped)⟩

end Select

namespace Database

open Parse Table

variable {ρ : Type} [Record ρ]

/-- A SELECT answers what its cores give, if the statement ends behind them. -/
theorem query_eq_of_select {db : Database} (hopen : db.dropped = false) {records : Records ρ}
    {sql : String} {params : List Value} {p : Parser} {s : Session ρ} {result : Table}
    (hword : expectOne Statement.firstWords (.ofText sql) = .ok .select p)
    (hrun : Select.selectWithin (4 * p.ahead.length + 4) none ⟨p, db.bindAll params, records⟩
      = .ok result s) (hend : Select.AtEnd s) :
    db.query records sql params = ⟨.ok result, s.database.unbind, s.records⟩ := by
  obtain ⟨q, hq⟩ := hend
  have hselect : Select.select ⟨p, db.bindAll params, records⟩ = .ok result s := hrun
  have hkind : (liftM (expectOne Statement.firstWords) : Statement ρ StatementKind)
      ⟨.ofText sql, db.bindAll params, records⟩ = .ok .select ⟨p, db.bindAll params, records⟩ :=
    Statement.parsing_eq_ok.mpr ⟨p, hword, rfl⟩
  have hstatement : Statement.run ⟨.ofText sql, db.bindAll params, records⟩ = .ok result s :=
    (bind_apply_ok hkind Statement.handle).trans hselect
  have hdone : (liftM expectEnd : Statement ρ Unit) s = .ok ⟨⟩ { s with parser := q } :=
    Statement.parsing_eq_ok.mpr ⟨q, hq, rfl⟩
  have hcomplete : Statement.complete ⟨.ofText sql, db.bindAll params, records⟩
      = .ok result { s with parser := q } := by
    rw [Statement.complete, bind_apply_ok hstatement, bind_apply_ok hdone, pure_apply]
  simp [query, execute, hopen, hcomplete, Except.mapError]

theorem query_select {db : Database} (hopen : db.dropped = false) {records : Records ρ}
    {sql : String} {params : List Value} {p : Parser} {s : Session ρ} {result : Table}
    (hword : expectOne Statement.firstWords (.ofText sql) = .ok .select p)
    (hrun : Select.selectWithin (4 * p.ahead.length + 4) none ⟨p, db.bindAll params, records⟩
      = .ok result s) (hend : Select.AtEnd s) :
    (db.query records sql params).answer = .ok result :=
  congrArg Reply.answer (query_eq_of_select hopen hword hrun hend)

/-- A compound of any length whose cores have the same distinct column names and types succeeds and
has as many rows as its cores together. Read by the names of the columns it shows `shownRows`: the
rows of the last core, and then only what stands under the columns of the first. These are the rows
of all cores, the last core first, exactly if `AllShow` holds. -/
theorem union_reads_cores_iff {db : Database} (hdb : Reachable db) (hopen : db.dropped = false)
    {records : Records ρ} {sql : String} {params : List Value} {p : Parser}
    (hword : expectOne Statement.firstWords (.ofText sql) = .ok .select p)
    {cores : List Table} {s : Session ρ}
    (hchain : Select.UnionChain ⟨p, db.bindAll params, records⟩ cores s)
    {header : List (String × ColumnType)} (hdistinct : (header.map Prod.fst).Nodup)
    (hcores : ∀ t ∈ cores, t.SharesHeader header) :
    ∃ first result, cores.head? = some first ∧ (db.query records sql params).answer = .ok result ∧
      result.rows.length = (cores.map fun t => t.rows.length).sum ∧
      ∀ behind : Records ρ,
        result.readByNames behind (header.map Prod.fst) = shownRows first cores.reverse ∧
        (result.readByNames behind (header.map Prod.fst)
            = (cores.reverse.map fun t => t.readByNames behind (header.map Prod.fst)).flatten ↔
          AllShow cores.reverse) := by
  have htyped : (db.bindAll params).WellTyped := hdb.wellTyped
  obtain ⟨first, result, hhead, hrun, hall⟩ := Select.selectWithin_cores hdistinct hchain hcores
    htyped (b := 4 * p.ahead.length + 4) (by simp only [Session.tokens]; omega)
  have hfirst : first ∈ cores := List.mem_of_head? hhead
  have hread : ∀ (behind : Records ρ), ∀ t ∈ cores,
      t.readByNames behind (header.map Prod.fst) = t.cellRows := by
    intro behind t ht
    have hself := accumulates_self (hcores t ht).rows_eq (hchain.wellTyped htyped t ht)
    have hnames := (hcores t ht).names
    rw [← hnames, hself.readByNames behind (hnames ▸ hdistinct)]
  have hshown : ∀ behind : Records ρ,
      result.readByNames behind (header.map Prod.fst) = shownRows first cores.reverse := by
    intro behind
    have hnames := (hcores first hfirst).names
    rw [← hnames, hall.readByNames behind (hnames ▸ hdistinct)]
  refine ⟨first, result, hhead, query_select hopen hword hrun hchain.atEnd, ?_,
    fun behind => ⟨hshown behind, ?_⟩⟩
  · rw [hall.length_rows, length_shownRows, List.map_reverse, List.sum_reverse]
  · rw [hshown behind, List.map_congr_left fun t ht => hread behind t (List.mem_reverse.mp ht)]
    exact shownRows_eq_flatten_iff (by rw [List.getLast?_reverse, hhead])
      (hchain.wellTyped htyped first hfirst) (hcores first hfirst).rows_eq

/-- What `SELECT 1` gives. -/
def selectedOne : Table := ⟨[.plain "1" .integer], [.owned [.integer 1]]⟩

theorem sharesHeader_selectedOne :
    ∀ t ∈ [selectedOne, selectedOne, selectedOne], t.SharesHeader [("1", .integer)] := by
  intro t ht
  obtain rfl : t = selectedOne := by simpa using ht
  refine ⟨rfl, fun row hrow => ⟨[.integer 1], ?_⟩⟩
  simpa [selectedOne] using hrow

theorem unionChain_selectedOne : ∃ p s, expectOne Statement.firstWords
      (.ofText "SELECT 1 UNION SELECT 1 UNION SELECT 1") = .ok .select p ∧
    Select.UnionChain ⟨p, standard.bindAll [], (⟨[]⟩ : Records CellRecord)⟩
      [selectedOne, selectedOne, selectedOne] s := by
  refine ⟨_, _, eq_ok_of_run' ?_, .more (eq_ok_of_run' ?_) (eq_ok_of_run' ?_) (eq_ok_of_run' ?_)
    (.more (eq_ok_of_run' ?_) (eq_ok_of_run' ?_) (eq_ok_of_run' ?_)
      (.last (eq_ok_of_run' ?_) (eq_ok_of_run' ?_) (eq_ok_of_run' ?_) (eq_ok_of_run' ?_)
        ⟨_, eq_ok_of_run' ?_⟩))⟩
  all_goals decide +kernel

/-- Of three cores that give the integer one only the last shows. -/
theorem union_reads_cores_iff_one : ∃ result,
    (standard.query (⟨[]⟩ : Records CellRecord) "SELECT 1 UNION SELECT 1 UNION SELECT 1" []).answer
      = .ok result ∧ result.rows.length = 3 ∧
    result.readByNames (⟨[]⟩ : Records CellRecord) ["1"] = [[.integer 1], [.null], [.null]] ∧
    ¬ AllShow [selectedOne, selectedOne, selectedOne] := by
  obtain ⟨p, s, hword, hchain⟩ := unionChain_selectedOne
  obtain ⟨first, result, hhead, hanswer, hlength, hread⟩ := union_reads_cores_iff
    (.create _ _) rfl hword hchain (by decide) sharesHeader_selectedOne
  obtain rfl : selectedOne = first := Option.some.inj hhead
  obtain ⟨hshown, hiff⟩ := hread ⟨[]⟩
  refine ⟨result, hanswer, hlength, hshown, fun hall => ?_⟩
  have hwrong := hshown.symm.trans (hiff.mpr hall)
  revert hwrong
  decide

/-- Not every compound reads as its cores do. -/
theorem not_union_reads_cores : ¬ ∀ (db : Database) (records : Records CellRecord) (sql : String)
    (params : List Value) (p : Parser) (cores : List Table) (s : Session CellRecord)
    (header : List (String × ColumnType)), Reachable db → db.dropped = false →
      expectOne Statement.firstWords (.ofText sql) = .ok .select p →
      Select.UnionChain ⟨p, db.bindAll params, records⟩ cores s → 2 ≤ cores.length →
      (header.map Prod.fst).Nodup → (∀ t ∈ cores, t.SharesHeader header) →
      ∃ result, (db.query records sql params).answer = .ok result ∧
        result.rows.length = (cores.map fun t => t.rows.length).sum ∧
        ∀ behind : Records CellRecord, result.readByNames behind (header.map Prod.fst)
          = (cores.reverse.map fun t => t.readByNames behind (header.map Prod.fst)).flatten := by
  intro h
  obtain ⟨p, s, hword, hchain⟩ := unionChain_selectedOne
  obtain ⟨result, hanswer, -, hread⟩ := h standard ⟨[]⟩ _ [] p _ s _ (.create _ _) rfl hword hchain
    (by decide) (by decide) sharesHeader_selectedOne
  have hactual : (standard.query (⟨[]⟩ : Records CellRecord)
      "SELECT 1 UNION SELECT 1 UNION SELECT 1" []).answer.toOption
      = some ⟨List.replicate 3 (.plain "1" .integer),
          [.owned [.integer 1, .null, .null], .owned [.null, .null, .null],
            .owned [.null, .null, .null]]⟩ := by
    decide +kernel
  have hwrong := hread ⟨[]⟩
  rw [hanswer] at hactual
  cases hactual
  revert hwrong
  decide

end Database

end OnePassSql

import OnePassSql.Proofs.Table.Projection

/-!
A selection out of a selection. The rows of the first are counted anew and its columns are copied,
but an expression finds the same values and types in it as in the table behind it. So two predicates
one after the other select what their conjunction does, whatever is projected.
-/

namespace OnePassSql

open Result

/-! ## Predicates that are truth values -/

/-- Operators that give truth values. -/
def BinaryOp.isTest (op : BinaryOp) : Bool :=
  [eq, ne, lt, le, gt, ge, and, or].contains op

/-- Operators that give truth values. -/
def UnaryOp.isTest (op : UnaryOp) : Bool :=
  [not, notNull, isNull].contains op

/-- The root of the expression is a comparison, AND, OR, NOT, NOT NULL or ISNULL. -/
def Expr.isTest : Expr → Bool
  | unary op _ => op.isTest
  | binary op _ _ => op.isTest
  | _ => false

namespace Value

@[simp] theorem isTrue_ofBool (b : Bool) : (ofBool b).isTrue = b := by
  cases b <;> rfl

@[simp] theorem ofBool_eq_one_iff (b : Bool) : ofBool b = integer 1 ↔ b = true := by
  cases b <;> decide

end Value

theorem BinaryOp.exists_ofBool_of_isTest {op : BinaryOp} (h : op.isTest = true) {v w r : Value}
    (hr : op.apply v w = .ok r) : ∃ b, r = .ofBool b := by
  cases op with
  | eq | ne | and | or =>
      cases hr
      exact ⟨_, rfl⟩
  | lt | le | gt | ge =>
      obtain ⟨b, -, rfl⟩ := map_eq_ok.mp hr
      exact ⟨_, rfl⟩
  | _ => cases h

/-- A test that has a value has a truth value. -/
theorem Expr.exists_ofBool_of_isTest {e : Expr} (h : e.isTest = true) {scope : Scope} {v : Value}
    (hv : e.eval scope = .ok v) : ∃ b, v = .ofBool b := by
  cases e with
  | unary op e =>
      obtain ⟨w, -, hv⟩ := bind_eq_ok.mp hv
      cases op with
      | not | notNull | isNull =>
          cases hv
          exact ⟨_, rfl⟩
      | negate => cases h
  | binary op l r =>
      obtain ⟨w, -, hv⟩ := bind_eq_ok.mp hv
      obtain ⟨w', -, hv⟩ := bind_eq_ok.mp hv
      exact BinaryOp.exists_ofBool_of_isTest h hv
  | _ => cases h

namespace Table

variable {ρ : Type} [Record ρ] {records : Records ρ} {t u : Table}

/-! ## Two predicates -/

/-- Where the predicate has a value on each row, it takes those on which this is the integer one. -/
theorem filterRows_eq_filter {e : Expr} {rows : List Nat}
    (h : ∀ row ∈ rows, ∃ v, e.eval (t.rowScope records row) = .ok v) :
    t.filterRows records e rows
      = .ok (rows.filter fun row => e.eval (t.rowScope records row) = .ok (.integer 1)) := by
  induction rows with
  | nil => rfl
  | cons row rows ih =>
      rw [List.forall_mem_cons] at h
      obtain ⟨⟨v, hv⟩, hrows⟩ := h
      rw [filterRows, hv, ih hrows, List.filter_cons, hv]
      simp only [bind, Except.bind, pure, Except.pure, Except.ok.injEq, decide_eq_true_eq]

theorem eval_and_of_isTest {p q : Expr} (hp : p.isTest = true) (hq : q.isTest = true)
    {scope : Scope} {v w : Value} (hv : p.eval scope = .ok v) (hw : q.eval scope = .ok w) :
    ∃ r, (Expr.binary .and p q).eval scope = .ok r ∧
      (r = .integer 1 ↔ v = .integer 1 ∧ w = .integer 1) := by
  obtain ⟨a, rfl⟩ := Expr.exists_ofBool_of_isTest hp hv
  obtain ⟨b, rfl⟩ := Expr.exists_ofBool_of_isTest hq hw
  refine ⟨.ofBool (a && b), ?_, by simp⟩
  rw [Expr.eval, hv, hw]
  simp [bind, Except.bind, BinaryOp.apply]

/-- Rows filtered twice are the rows on which both predicates hold. -/
theorem filterRows_and {p q : Expr} {rows : List Nat} (hp : p.isTest = true) (hq : q.isTest = true)
    (hvp : ∀ row ∈ rows, ∃ v, p.eval (t.rowScope records row) = .ok v)
    (hvq : ∀ row ∈ rows, ∃ v, q.eval (t.rowScope records row) = .ok v) :
    ∃ matched, t.filterRows records p rows = .ok matched ∧
      t.filterRows records (.binary .and p q) rows = t.filterRows records q matched := by
  have hand (row : Nat) (hrow : row ∈ rows) : ∃ v w r,
      p.eval (t.rowScope records row) = .ok v ∧ q.eval (t.rowScope records row) = .ok w ∧
        (Expr.binary .and p q).eval (t.rowScope records row) = .ok r ∧
        (r = .integer 1 ↔ v = .integer 1 ∧ w = .integer 1) := by
    obtain ⟨v, hv⟩ := hvp row hrow
    obtain ⟨w, hw⟩ := hvq row hrow
    obtain ⟨r, hr, hone⟩ := eval_and_of_isTest hp hq hv hw
    exact ⟨v, w, r, hv, hw, hr, hone⟩
  refine ⟨_, filterRows_eq_filter hvp, ?_⟩
  rw [filterRows_eq_filter fun row hrow => hvq row (List.mem_of_mem_filter hrow),
    filterRows_eq_filter fun row hrow => ?_, List.filter_filter]
  · refine congrArg Except.ok (List.filter_congr fun row hrow => ?_)
    obtain ⟨v, w, r, hv, hw, hr, hone⟩ := hand row hrow
    simp only [hv, hw, hr, Except.ok.injEq, hone, Bool.decide_and, Bool.and_comm]
  · obtain ⟨v, w, r, -, -, hr, -⟩ := hand row hrow
    exact ⟨r, hr⟩

/-! ## Rows counted anew -/

/-- The rows of `u` are rows of `t`, the `i`-th one its `index i`-th, and the columns are the same
but for their counters. -/
structure Reindexes (u t : Table) (index : Nat → Nat) : Prop where
  columns : u.columns = t.columns.map Column.fresh
  row (i : Nat) : i < u.rows.length → u.rows[i]? = t.rows[index i]?

section Reindexed

variable {index : Nat → Nat} (h : u.Reindexes t index)

include h

theorem Reindexes.columnIndex? (name : String) : u.columnIndex? name = t.columnIndex? name := by
  rw [Table.columnIndex?, h.columns, List.findIdx?_map]
  rfl

theorem Reindexes.columnType (name : String) : u.columnType name = t.columnType name := by
  have hname : (fun c : Column => c.name == name) ∘ Column.fresh = fun c => c.name == name := rfl
  rw [Table.columnType, Table.columnType, h.columns, List.find?_map, hname]
  cases t.columns.find? fun c => c.name == name <;> rfl

theorem Reindexes.scope : u.scope = t.scope := by
  unfold Table.scope
  simp only [h.columnIndex?]
  rw [funext h.columnType]

theorem Reindexes.rowScope (records : Records ρ) {i : Nat} (hi : i < u.rows.length) :
    u.rowScope records i = t.rowScope records (index i) := by
  unfold Table.rowScope Table.cell
  simp only [h.columnIndex?, h.row i hi]
  rw [funext h.columnType]

theorem Reindexes.filterRows (records : Records ρ) (e : Expr) {rows : List Nat}
    (hrows : ∀ i ∈ rows, i < u.rows.length) :
    t.filterRows records e (rows.map index) = List.map index <$> u.filterRows records e rows := by
  induction rows with
  | nil => rfl
  | cons i rows ih =>
      rw [List.forall_mem_cons] at hrows
      rw [List.map_cons, Table.filterRows, Table.filterRows, ih hrows.2, h.rowScope records hrows.1]
      cases e.eval (t.rowScope records (index i)) with
      | error fault => rfl
      | ok v =>
          cases u.filterRows records e rows with
          | error fault => rfl
          | ok matched =>
              simp only [bind, Except.bind, pure, Except.pure, Functor.map, Except.map]
              split <;> rfl

/-- What is projected on the rows does not show how they are counted. -/
theorem Reindexes.mapM_project (records : Records ρ) (exprs : List Expr) {rows : List Nat}
    (hrows : ∀ i ∈ rows, i < u.rows.length) :
    (rows.map index).mapM (t.project records exprs) = rows.mapM (u.project records exprs) := by
  induction rows with
  | nil => rfl
  | cons i rows ih =>
      rw [List.forall_mem_cons] at hrows
      rw [List.map_cons, List.mapM_cons, List.mapM_cons, ih hrows.2, Table.project, Table.project,
        h.rowScope records hrows.1]

/-- The same rows are extracted, in whichever of the tables they are selected. -/
theorem Reindexes.extract (records : Records ρ) (columns : Option (List Expr))
    {predicate predicate' : Option Expr}
    (hrows : t.rowsWhere records predicate'
      = List.map index <$> u.rowsWhere records predicate) :
    u.extract records columns predicate = t.extract records columns predicate' := by
  unfold Table.extract
  rw [hrows]
  cases hmatched : u.rowsWhere records predicate with
  | error fault => rfl
  | ok matched =>
      have hlt : ∀ i ∈ matched, i < u.rows.length := fun i hi =>
        (((rowsWhere_eq_ok hmatched).2 i).mp hi).1
      simp only [bind, Except.bind, pure, Except.pure, Functor.map, Except.map]
      cases columns with
      | none =>
          have hsame : (matched.map index).filterMap (fun row => t.rows[row]?)
              = matched.filterMap fun row => u.rows[row]? := by
            rw [List.filterMap_map]
            exact List.filterMap_congr fun i hi => (h.row i (hlt i hi)).symm
          simp only [hsame, h.columns, List.map_map]
          rfl
      | some exprs =>
          dsimp only
          rw [h.mapM_project records exprs hlt, h.scope]

end Reindexed

/-! ## Selections one out of the other -/

/-- Numbers of rows that are there take one row each. -/
theorem map_some_filterMap_rows {rows : List Nat} (h : ∀ row ∈ rows, row < t.rows.length) :
    (rows.filterMap fun row => t.rows[row]?).map some = rows.map fun row => t.rows[row]? := by
  induction rows with
  | nil => rfl
  | cons row rows ih =>
      rw [List.forall_mem_cons] at h
      rw [List.filterMap_cons, List.map_cons, List.getElem?_eq_getElem h.1, ← ih h.2]
      rfl

/-- The rows that a predicate takes, with all columns, are a table of rows counted anew. -/
theorem exists_extract_all {predicate : Option Expr} {matched : List Nat}
    (hmatched : t.rowsWhere records predicate = .ok matched) :
    ∃ u, t.extract records none predicate = .ok u ∧
      u.Reindexes t (fun i => matched[i]?.getD 0) ∧ u.rows.length = matched.length := by
  have hrows := map_some_filterMap_rows fun row hrow =>
    (((rowsWhere_eq_ok hmatched).2 row).mp hrow).1
  refine ⟨⟨t.columns.map Column.fresh, matched.filterMap fun row => t.rows[row]?⟩, ?_,
    ⟨rfl, ?_⟩, ?_⟩
  · rw [extract, hmatched]
    rfl
  · intro i hi
    have hrow := congrArg (fun taken => taken[i]?) hrows
    simp only [List.getElem?_map, List.getElem?_eq_getElem hi, Option.map_some] at hrow
    obtain ⟨row, hrow, hsame⟩ := Option.map_eq_some_iff.mp hrow.symm
    dsimp only
    rw [hrow, List.getElem?_eq_getElem hi, Option.getD_some, hsame]
  · simpa using congrArg List.length hrows

theorem map_getD_range (matched : List Nat) :
    (List.range matched.length).map (fun i => matched[i]?.getD 0) = matched := by
  refine List.ext_getElem (by simp) fun i hi hi' => ?_
  simp [List.getElem?_eq_getElem hi']

/-- Two predicates one after the other select what their conjunction selects. -/
theorem exists_extract_test {p q : Expr} (hp : p.isTest = true) (hq : q.isTest = true)
    (h : ∀ row < t.rows.length, (∃ v, p.eval (t.rowScope records row) = .ok v) ∧
      ∃ v, q.eval (t.rowScope records row) = .ok v) :
    ∃ u, t.extract records none (some p) = .ok u ∧ ∀ columns,
      u.extract records columns (some q) = t.extract records columns (some (.binary .and p q)) := by
  have hrows (row : Nat) (hrow : row ∈ List.range t.rows.length) := h row (List.mem_range.mp hrow)
  obtain ⟨matched, hmatched, hboth⟩ := filterRows_and hp hq (fun row hrow => (hrows row hrow).1)
    fun row hrow => (hrows row hrow).2
  have hwhere : t.rowsWhere records (some p) = .ok matched := hmatched
  obtain ⟨u, hu, hindexed, hlength⟩ := exists_extract_all hwhere
  refine ⟨u, hu, fun columns => hindexed.extract records columns ?_⟩
  rw [rowsWhere, rowsWhere, hboth, ← hindexed.filterRows records q (by simp), hlength,
    map_getD_range]

/-- Selections without a predicate select what there is to select from. -/
theorem exists_extract_rows (records : Records ρ) (t : Table) :
    ∃ u, t.extract records none none = .ok u ∧ ∀ columns predicate,
      u.extract records columns predicate = t.extract records columns predicate := by
  have hwhere : t.rowsWhere records none = .ok (List.range t.rows.length) := rfl
  obtain ⟨u, hu, hindexed, hlength⟩ := exists_extract_all hwhere
  have hsame := map_getD_range (List.range t.rows.length)
  rw [← hlength] at hsame
  refine ⟨u, hu, fun columns predicate => hindexed.extract records columns ?_⟩
  cases predicate with
  | none => exact congrArg Except.ok hsame.symm
  | some e => rw [rowsWhere, rowsWhere, ← hindexed.filterRows records e (by simp), hsame]

end Table

end OnePassSql

import OnePassSql.Proofs.Table.Composition

/-!
Tests as sets of rows. Wherever a test has a value it is a truth value, so AND takes the rows that
both tests take, OR those that one of them takes and NOT all others. Both operands are evaluated
whatever the first one says, so a fault in one of them is a fault of the two together.
-/

namespace OnePassSql

namespace Expr

variable {scope : Scope} {p q : Expr} {v w : Value}

theorem eval_not (hv : p.eval scope = .ok v) :
    (Expr.unary .not p).eval scope = .ok (.ofBool (!v.isTrue)) := by
  rw [eval, hv]
  rfl

theorem eval_or (hv : p.eval scope = .ok v) (hw : q.eval scope = .ok w) :
    (Expr.binary .or p q).eval scope = .ok (.ofBool (v.isTrue || w.isTrue)) := by
  rw [eval, hv, hw]
  rfl

theorem eval_or_of_isTest (hp : p.isTest = true) (hq : q.isTest = true)
    (hv : p.eval scope = .ok v) (hw : q.eval scope = .ok w) :
    ∃ r, (Expr.binary .or p q).eval scope = .ok r ∧
      (r = .integer 1 ↔ v = .integer 1 ∨ w = .integer 1) := by
  obtain ⟨a, rfl⟩ := exists_ofBool_of_isTest hp hv
  obtain ⟨b, rfl⟩ := exists_ofBool_of_isTest hq hw
  exact ⟨_, eval_or hv hw, by simp⟩

theorem eval_not_of_isTest (hp : p.isTest = true) (hv : p.eval scope = .ok v) :
    ∃ r, (Expr.unary .not p).eval scope = .ok r ∧ (r = .integer 1 ↔ ¬v = .integer 1) := by
  obtain ⟨a, rfl⟩ := exists_ofBool_of_isTest hp hv
  exact ⟨_, eval_not hv, by simp⟩

/-- Both operands are evaluated before the operator is looked at. -/
theorem exists_values_of_binary {op : BinaryOp} (hv : (Expr.binary op p q).eval scope = .ok v) :
    (∃ w, p.eval scope = .ok w) ∧ ∃ w, q.eval scope = .ok w := by
  obtain ⟨w, hp, hv⟩ := Result.bind_eq_ok.mp hv
  obtain ⟨w', hq, -⟩ := Result.bind_eq_ok.mp hv
  exact ⟨⟨w, hp⟩, w', hq⟩

end Expr

namespace Table

variable {ρ : Type} [Record ρ] {records : Records ρ} {t : Table} {p q : Expr}

/-! ## The rows that a predicate takes -/

/-- The predicate has a value on every row. -/
def HasValues (records : Records ρ) (t : Table) (e : Expr) : Prop :=
  ∀ row < t.rows.length, ∃ v, e.eval (t.rowScope records row) = .ok v

/-- On some row the predicate faults. -/
def FaultsOnRow (records : Records ρ) (t : Table) (e : Expr) : Prop :=
  ∃ row < t.rows.length, ∃ fault, e.eval (t.rowScope records row) = .error fault

/-- The numbers with the property, each once and in ascending order. -/
def Lists (rows : List Nat) (P : Nat → Prop) : Prop :=
  rows.Pairwise (· < ·) ∧ ∀ row, row ∈ rows ↔ P row

theorem Lists.congr {rows : List Nat} {P Q : Nat → Prop} (h : Lists rows P)
    (hPQ : ∀ row, P row ↔ Q row) : Lists rows Q :=
  ⟨h.1, fun row => (h.2 row).trans (hPQ row)⟩

theorem FaultsOnRow.not_hasValues {e : Expr} (h : t.FaultsOnRow records e) :
    ¬t.HasValues records e := by
  intro hvalues
  obtain ⟨row, hrow, fault, hfault⟩ := h
  obtain ⟨v, hv⟩ := hvalues row hrow
  rw [hfault] at hv
  cases hv

/-- A predicate that on each row has a value, which is the integer one where `P` holds, takes the
rows with `P`. -/
theorem exists_rowsWhere {e : Expr} {P : Nat → Prop}
    (h : ∀ row < t.rows.length, ∃ v, e.eval (t.rowScope records row) = .ok v ∧
      (v = .integer 1 ↔ P row)) :
    ∃ rows, t.rowsWhere records (some e) = .ok rows ∧
      Lists rows fun row => row < t.rows.length ∧ P row := by
  have hvalues : ∀ row ∈ List.range t.rows.length,
      ∃ v, e.eval (t.rowScope records row) = .ok v := by
    intro row hrow
    obtain ⟨v, hv, -⟩ := h row (List.mem_range.mp hrow)
    exact ⟨v, hv⟩
  refine ⟨_, filterRows_eq_filter hvalues, List.pairwise_lt_range.filter _, fun row => ?_⟩
  rw [List.mem_filter, List.mem_range, decide_eq_true_eq]
  apply and_congr_right
  intro hrow
  obtain ⟨v, hv, hone⟩ := h row hrow
  rw [hv, Except.ok.injEq, hone]

theorem filterRows_hasValues {e : Expr} {rows matched : List Nat}
    (h : t.filterRows records e rows = .ok matched) :
    ∀ row ∈ rows, ∃ v, e.eval (t.rowScope records row) = .ok v := by
  induction rows generalizing matched with
  | nil => simp
  | cons first rest ih =>
      obtain ⟨v, hv, h⟩ := Result.bind_eq_ok.mp h
      obtain ⟨later, hlater, -⟩ := Result.bind_eq_ok.mp h
      rw [List.forall_mem_cons]
      exact ⟨⟨v, hv⟩, ih hlater⟩

/-- Rows are only taken if the predicate has a value on each of them. -/
theorem exists_error_of_not_hasValues {e : Expr} (h : ¬t.HasValues records e) :
    ∃ fault, t.rowsWhere records (some e) = .error fault := by
  cases hrows : t.rowsWhere records (some e) with
  | error fault => exact ⟨fault, rfl⟩
  | ok rows =>
      exfalso
      apply h
      intro row hrow
      exact filterRows_hasValues hrows row (List.mem_range.mpr hrow)

/-! ## Connectives -/

/-- The rows that a predicate with values takes, and which of its values that tells of. -/
theorem HasValues.exists_rows {e : Expr} (h : t.HasValues records e) :
    ∃ rows, t.rowsWhere records (some e) = .ok rows ∧ (∀ row ∈ rows, row < t.rows.length) ∧
      ∀ row < t.rows.length, ∃ v, e.eval (t.rowScope records row) = .ok v ∧
        (v = .integer 1 ↔ row ∈ rows) := by
  have hone : ∀ row < t.rows.length, ∃ v, e.eval (t.rowScope records row) = .ok v ∧
      (v = .integer 1 ↔ e.eval (t.rowScope records row) = .ok (.integer 1)) := by
    intro row hrow
    obtain ⟨v, hv⟩ := h row hrow
    exact ⟨v, hv, by rw [hv, Except.ok.injEq]⟩
  obtain ⟨rows, hrows, -, hmem⟩ := exists_rowsWhere hone
  refine ⟨rows, hrows, fun row hrow => ((hmem row).mp hrow).1, fun row hrow => ?_⟩
  obtain ⟨v, hv, hiff⟩ := hone row hrow
  exact ⟨v, hv, hiff.trans ((hmem row).trans (and_iff_right hrow)).symm⟩

theorem rowsWhere_binary_of_fault (h : t.FaultsOnRow records p ∨ t.FaultsOnRow records q)
    (op : BinaryOp) : ∃ fault, t.rowsWhere records (some (.binary op p q)) = .error fault := by
  apply exists_error_of_not_hasValues
  intro hvalues
  have hboth (row : Nat) (hrow : row < t.rows.length) :=
    (hvalues row hrow).elim fun _ hv => Expr.exists_values_of_binary hv
  rcases h with h | h
  · exact h.not_hasValues fun row hrow => (hboth row hrow).1
  · exact h.not_hasValues fun row hrow => (hboth row hrow).2

/-- AND, OR and NOT are intersection, union and complement on the rows that tests take, and AND and
OR fault wherever one of their operands does. -/
theorem rowsWhere_connectives (hp : p.isTest = true) (hq : q.isTest = true) :
    (t.HasValues records p → t.HasValues records q → ∃ ps qs both either others,
      t.rowsWhere records (some p) = .ok ps ∧ t.rowsWhere records (some q) = .ok qs ∧
      t.rowsWhere records (some (.binary .and p q)) = .ok both ∧
      t.rowsWhere records (some (.binary .or p q)) = .ok either ∧
      t.rowsWhere records (some (.unary .not p)) = .ok others ∧
      Lists both (fun row => row ∈ ps ∧ row ∈ qs) ∧
      Lists either (fun row => row ∈ ps ∨ row ∈ qs) ∧
      Lists others (fun row => row < t.rows.length ∧ row ∉ ps)) ∧
    (t.FaultsOnRow records p ∨ t.FaultsOnRow records q →
      (∃ fault, t.rowsWhere records (some (.binary .and p q)) = .error fault) ∧
      ∃ fault, t.rowsWhere records (some (.binary .or p q)) = .error fault) := by
  refine ⟨fun hvp hvq => ?_, fun h =>
    ⟨rowsWhere_binary_of_fault h .and, rowsWhere_binary_of_fault h .or⟩⟩
  obtain ⟨ps, hps, hltp, hp'⟩ := hvp.exists_rows
  obtain ⟨qs, hqs, hltq, hq'⟩ := hvq.exists_rows
  have hand : ∃ both, t.rowsWhere records (some (.binary .and p q)) = .ok both ∧
      Lists both fun row => row < t.rows.length ∧ row ∈ ps ∧ row ∈ qs := by
    apply exists_rowsWhere
    intro row hrow
    obtain ⟨v, hv, hone⟩ := hp' row hrow
    obtain ⟨w, hw, hone'⟩ := hq' row hrow
    rw [← hone, ← hone']
    exact eval_and_of_isTest hp hq hv hw
  have hor : ∃ either, t.rowsWhere records (some (.binary .or p q)) = .ok either ∧
      Lists either fun row => row < t.rows.length ∧ (row ∈ ps ∨ row ∈ qs) := by
    apply exists_rowsWhere
    intro row hrow
    obtain ⟨v, hv, hone⟩ := hp' row hrow
    obtain ⟨w, hw, hone'⟩ := hq' row hrow
    rw [← hone, ← hone']
    exact Expr.eval_or_of_isTest hp hq hv hw
  have hnot : ∃ others, t.rowsWhere records (some (.unary .not p)) = .ok others ∧
      Lists others fun row => row < t.rows.length ∧ row ∉ ps := by
    apply exists_rowsWhere
    intro row hrow
    obtain ⟨v, hv, hone⟩ := hp' row hrow
    rw [← hone]
    exact Expr.eval_not_of_isTest hp hv
  obtain ⟨both, hboth, hinboth⟩ := hand
  obtain ⟨either, heither, hineither⟩ := hor
  obtain ⟨others, hothers, hinothers⟩ := hnot
  refine ⟨ps, qs, both, either, others, hps, hqs, hboth, heither, hothers, ?_, ?_, hinothers⟩
  · exact hinboth.congr fun row => and_iff_right_of_imp fun h => hltp row h.1
  · exact hineither.congr fun row => and_iff_right_of_imp fun h => h.elim (hltp row) (hltq row)

/-- Three rows with nulls and texts among the cells. -/
def measured : Table :=
  ⟨[.plain "a" .integer, .plain "b" .text],
    [.owned [.integer 1, .text "x"], .owned [.null, .text "TRUE"], .owned [.integer 3, .null]]⟩

/-- Two tests of which each takes a row that the other one does not, and a comparison of a text with
a number, which faults on the first row. -/
theorem rowsWhere_connectives_measured :
    let records : Records CellRecord := ⟨[]⟩
    let p : Expr := .binary .lt (.column "a") (.literal (.integer 3))
    let q : Expr := .unary .not (.binary .eq (.column "a") (.literal (.integer 1)))
    let r : Expr := .binary .gt (.literal (.integer 2)) (.column "b")
    measured.rowsWhere records (some p) = .ok [0, 1] ∧
    measured.rowsWhere records (some q) = .ok [1, 2] ∧
    (∃ both either others,
      measured.rowsWhere records (some (.binary .and p q)) = .ok both ∧
      measured.rowsWhere records (some (.binary .or p q)) = .ok either ∧
      measured.rowsWhere records (some (.unary .not p)) = .ok others ∧
      Lists both (fun row => row ∈ [0, 1] ∧ row ∈ [1, 2]) ∧
      Lists either (fun row => row ∈ [0, 1] ∨ row ∈ [1, 2]) ∧
      Lists others (fun row => row < 3 ∧ row ∉ [0, 1])) ∧
    measured.FaultsOnRow records r ∧
    ∃ fault, measured.rowsWhere records (some (.binary .or p r)) = .error fault := by
  intro records p q r
  have hps : measured.rowsWhere records (some p) = .ok [0, 1] := rfl
  have hqs : measured.rowsWhere records (some q) = .ok [1, 2] := rfl
  have hvalues : ∀ row < measured.rows.length,
      (∃ v, p.eval (measured.rowScope records row) = .ok v) ∧
        ∃ v, q.eval (measured.rowScope records row) = .ok v := by
    intro row hrow
    obtain rfl | rfl | rfl : row = 0 ∨ row = 1 ∨ row = 2 := by
      simp only [measured, List.length_cons, List.length_nil] at hrow
      omega
    all_goals exact ⟨⟨_, rfl⟩, _, rfl⟩
  have hfault : measured.FaultsOnRow records r := ⟨0, by decide, _, rfl⟩
  obtain ⟨ps, qs, both, either, others, hps', hqs', hboth, heither, hothers, hsets⟩ :=
    (rowsWhere_connectives rfl rfl).1 (fun row hrow => (hvalues row hrow).1)
      fun row hrow => (hvalues row hrow).2
  cases hps.symm.trans hps'
  cases hqs.symm.trans hqs'
  exact ⟨hps, hqs, ⟨both, either, others, hboth, heither, hothers, hsets⟩, hfault,
    ((rowsWhere_connectives rfl rfl).2 (.inr hfault)).2⟩

end Table

end OnePassSql

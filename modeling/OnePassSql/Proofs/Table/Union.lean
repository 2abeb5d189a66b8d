import OnePassSql.Proofs.Table.WellTyped
import OnePassSql.Table.Union

/-!
The union of two tables. A row that is copied goes through the names of its columns: each cell is
written into the first column of its name, so that where a name is repeated the last cell counts.
-/

namespace OnePassSql.Edit

open Step

variable {ρ : Type} [Record ρ]

/-! ## Kinds -/

theorem keepsTypes_addColumns {columns : List Column}
    (h : ∀ c ∈ columns, c.default.fits c.type = true) :
    Respects KeepsTypes (addColumns columns : Edit ρ Unit) := by
  induction columns with
  | nil => exact respects_pure _
  | cons c rest ih =>
      rw [List.forall_mem_cons] at h
      refine (respects_modify fun s hs => ?_).bind fun _ => ih h.2
      exact hs.addColumn s.records h.1

theorem keepsTypes_copyCells (source : Table) (row target index : Nat) (columns : List Column) :
    Respects KeepsTypes (copyCells source row target index columns : Edit ρ Unit) := by
  induction columns generalizing index with
  | nil => exact respects_pure _
  | cons c rest ih =>
      refine respects_get.bind fun s => ?_
      dsimp only
      split
      · exact (keepsTypes_set _ _ _).bind fun _ => ih (index + 1)
      · exact ih (index + 1)

theorem keepsTypes_copyRows (source : Table) (rows : List Nat) :
    Respects KeepsTypes (copyRows source rows : Edit ρ Unit) := by
  induction rows with
  | nil => exact respects_pure _
  | cons row rest ih =>
      exact respects_get.bind fun s => (keepsTypes_copyCells _ _ _ _ _).bind fun _ => ih

theorem keepsTypes_union {other : Table} (h : other.WellTyped) :
    Respects KeepsTypes (union other : Edit ρ Unit) :=
  (keepsTypes_addColumns h.defaults).bind fun _ => keepsTypes_copyRows _ _

/-! ## Tables that hold their rows themselves -/

theorem extendRows_owned (column : Nat) (default : Value) (rows : List (List Value))
    (records : Records ρ) :
    Table.extendRows column default (rows.map Row.owned) records
      = ((rows.map fun row => row ++ [default]).map Row.owned, records) := by
  induction rows with
  | nil => rfl
  | cons row rest ih => simp [Table.extendRows, ih]

/-- Added columns give every row their defaults. -/
theorem addColumns_owned (added : List Column) (columns : List Column) (rows : List (List Value))
    (records : Records ρ) :
    addColumns added ⟨⟨columns, rows.map Row.owned⟩, records⟩
      = .ok ⟨⟩ ⟨⟨columns ++ added.map Column.fresh,
          (rows.map fun row => row ++ added.map Column.default).map Row.owned⟩, records⟩ := by
  induction added generalizing columns rows with
  | nil => simp [addColumns]
  | cons c rest ih =>
      rw [addColumns, bind_apply_ok (modify_apply _ _)]
      simp only [Table.addColumn, extendRows_owned, ih]
      simp [Column.fresh, Function.comp_def]

/-- The first of the columns is copied by one write. -/
theorem copyCells_cons {source : Table} {row target index column : Nat} {vals : List Value}
    {v : Value} {c : Column} {rest : List Column} {s s' : Sheet ρ}
    (hrow : source.rows[row]? = some (.owned vals)) (hv : vals[index]? = some v)
    (hcolumn : s.table.columnIndex? c.name = some column)
    (hset : set target column v s = .ok ⟨⟩ s') :
    copyCells source row target index (c :: rest) s
      = copyCells source row target (index + 1) rest s' := by
  have hcell : source.cell s.records row index = v := by
    simp [Table.cell, hrow, Row.cell, hv]
  rw [copyCells, bind_apply_ok (get_apply s)]
  simp only [hcolumn, hcell]
  rw [bind_apply_ok hset]

/-- Copying cells into a row that is there writes them behind what was written to it. -/
theorem copyCells_last {source t : Table} {row index : Nat} {vals : List Value}
    (hrow : source.rows[row]? = some (.owned vals)) {columns : List Column}
    {cells : List (Nat × Value)} (hlength : columns.length = (vals.drop index).length)
    (h : List.Forall₂ t.PutsValue ((columns.map Column.name).zip (vals.drop index)) cells)
    (before : List (Nat × Value)) (records : Records ρ) :
    copyCells source row t.rows.length index columns ⟨t.appendRow before, records⟩
      = .ok ⟨⟩ ⟨t.appendRow (before ++ cells), records⟩ := by
  induction columns generalizing index cells before with
  | nil =>
      cases h
      simp [copyCells]
  | cons c rest ih =>
      cases hdrop : vals.drop index with
      | nil => simp [hdrop] at hlength
      | cons v more =>
          rw [hdrop] at h hlength
          have hv : vals[index]? = some v := by
            rw [← Nat.add_zero index, ← List.getElem?_drop, hdrop, List.getElem?_cons_zero]
          have hmore : vals.drop (index + 1) = more := by
            rw [← List.tail_drop, hdrop, List.tail_cons]
          cases h with
          | cons hfirst hrest =>
              have hindex := (Table.columnIndex?_appendRow t before c.name).trans hfirst.1
              rw [copyCells_cons hrow hv hindex (set_last hfirst.2 before records),
                ih (hmore ▸ Nat.succ.inj hlength) (hmore ▸ hrest), List.append_assoc]
              rfl

/-- Copying a row behind the last one creates it. -/
theorem copyCells_behind {source t : Table} {row : Nat} {vals : List Value}
    (hrow : source.rows[row]? = some (.owned vals)) {cells : List (Nat × Value)}
    (hlength : source.columns.length = vals.length) (hne : source.columns ≠ [])
    (h : List.Forall₂ t.PutsValue ((source.columns.map Column.name).zip vals) cells)
    (records : Records ρ) :
    copyCells source row t.rows.length 0 source.columns ⟨t, records⟩
      = .ok ⟨⟩ ⟨t.appendRow cells, records⟩ := by
  obtain ⟨c, rest, hcolumns⟩ := List.exists_cons_of_ne_nil hne
  rw [hcolumns] at h hlength ⊢
  cases vals with
  | nil => cases hlength
  | cons v vals =>
      cases h with
      | cons hfirst hrest =>
          rw [copyCells_cons hrow rfl hfirst.1 (set_behind hfirst.2 records),
            copyCells_last hrow (Nat.succ.inj hlength) hrest]
          rfl

/-- The writes that copy a row of the table `source`. -/
def CopiesRow (source t : Table) (row : Nat) (writes : List (Nat × Value)) : Prop :=
  ∃ vals, source.rows[row]? = some (.owned vals) ∧ source.columns.length = vals.length ∧
    source.columns ≠ [] ∧
    List.Forall₂ t.PutsValue ((source.columns.map Column.name).zip vals) writes

theorem copiesRow_appendRow (source t : Table) (writes : List (Nat × Value)) :
    CopiesRow source (t.appendRow writes) = CopiesRow source t := by
  funext row cells
  rw [CopiesRow, CopiesRow, Table.putsValue_appendRow]

/-- Copying rows lays each of them over a fresh row. -/
theorem copyRows_apply {source t : Table} {rows : List Nat} {writes : List (List (Nat × Value))}
    (h : List.Forall₂ (CopiesRow source t) rows writes) (records : Records ρ) :
    copyRows source rows ⟨t, records⟩ = .ok ⟨⟩ ⟨writes.foldl Table.appendRow t, records⟩ := by
  induction rows generalizing t writes with
  | nil =>
      cases h
      rfl
  | cons row rest ih =>
      cases h with
      | cons hfirst hrest =>
          obtain ⟨vals, hrow, hlength, hne, hputs⟩ := hfirst
          rw [copyRows, bind_apply_ok (get_apply _),
            bind_apply_ok (copyCells_behind hrow hlength hne hputs records), List.foldl_cons]
          exact ih (copiesRow_appendRow source t _ ▸ hrest)

/-- The rows of tables made by adding row after row. The counters run on from row to row. -/
theorem foldl_appendRow (t : Table) (writes : List (List (Nat × Value))) :
    writes.foldl Table.appendRow t = ⟨t.columns.map (Column.advanceBy writes.length),
      t.rows ++ writes.mapIdx fun i cells =>
        .owned (Table.writeCells (t.columns.map fun c => (c.advanceBy i).fill) cells)⟩ := by
  induction writes generalizing t with
  | nil => simp
  | cons cells rest ih =>
      rw [List.foldl_cons, ih]
      simp [List.mapIdx_cons, Function.comp_def, Column.advanceBy_advance, Table.freshCells]

/-- The union of tables that hold their rows themselves: old rows have the defaults of the new
columns behind them, and each row of the other table is laid over a fresh row of all columns. -/
theorem union_apply {t other : Table} {rows others : List (List Value)}
    (ht : t.rows = rows.map Row.owned) (hother : other.rows = others.map Row.owned)
    (hwidth : ∀ vals ∈ others, other.columns.length = vals.length ∧ other.columns ≠ [])
    {writes : List (List (Nat × Value))}
    (h : List.Forall₂ (fun vals cells =>
      List.Forall₂ (Table.PutsValue ⟨t.columns ++ other.columns.map Column.fresh, []⟩)
        ((other.columns.map Column.name).zip vals) cells) others writes)
    (records : Records ρ) :
    union other ⟨t, records⟩ = .ok ⟨⟩
      ⟨⟨(t.columns ++ other.columns.map Column.fresh).map (Column.advanceBy others.length),
        (rows.map fun row => row ++ other.columns.map Column.default).map Row.owned ++
          writes.mapIdx fun i cells => .owned (Table.writeCells
            ((t.columns ++ other.columns.map Column.fresh).map fun c => (c.advanceBy i).fill)
            cells)⟩, records⟩ := by
  obtain ⟨columns, trows⟩ := t
  subst ht
  have hcopies : List.Forall₂ (CopiesRow other ⟨columns ++ other.columns.map Column.fresh,
      (rows.map fun row => row ++ other.columns.map Column.default).map Row.owned⟩)
      (List.range other.rows.length) writes := by
    refine Result.forall₂_of_getElem? ?_ fun i row cells hrow hcells => ?_
    · rw [List.length_range, hother, List.length_map, h.length_eq]
    · obtain ⟨vals, hvals, hputs⟩ := Result.exists_left_of_forall₂ h hcells
      obtain ⟨hi, rfl⟩ := List.getElem?_eq_some_iff.mp hrow
      rw [List.getElem_range]
      obtain ⟨hlength, hne⟩ := hwidth vals (List.mem_of_getElem? hvals)
      exact ⟨vals, by simp [hother, hvals], hlength, hne, hputs⟩
  rw [union, bind_apply_ok (addColumns_owned _ _ _ _), copyRows_apply hcopies, foldl_appendRow,
    ← h.length_eq]

end OnePassSql.Edit

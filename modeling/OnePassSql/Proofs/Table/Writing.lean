import OnePassSql.Proofs.Step
import OnePassSql.Proofs.Value.Kinds
import OnePassSql.Table.Edit

/-!
Writes of cells. A write is refused before anything is created, or it goes through. Rows are written
cell by cell behind the last row: the first write creates the row and fills it, the others find it
there; the outcome is the fresh row with the writes laid over it in their order.
-/

namespace OnePassSql

namespace Column

@[simp] theorem advance_name (c : Column) : c.advance.name = c.name := by
  unfold advance
  split <;> rfl

@[simp] theorem advance_type (c : Column) : c.advance.type = c.type := by
  unfold advance
  split <;> rfl

@[simp] theorem advance_flags (c : Column) : c.advance.flags = c.flags := by
  unfold advance
  split <;> rfl

@[simp] theorem advance_default (c : Column) : c.advance.default = c.default := by
  unfold advance
  split <;> rfl

/-- The column after `n` rows were created. -/
def advanceBy (n : Nat) (c : Column) : Column :=
  if c.flags.autoIncrement then { c with counter := c.counter + n } else c

@[simp] theorem advanceBy_zero (c : Column) : c.advanceBy 0 = c := by
  unfold advanceBy
  split <;> rfl

@[simp] theorem map_advanceBy_zero (columns : List Column) :
    columns.map (advanceBy 0) = columns := by
  rw [List.map_congr_left fun c _ => c.advanceBy_zero, List.map_id']

@[simp] theorem advanceBy_name (n : Nat) (c : Column) : (c.advanceBy n).name = c.name := by
  unfold advanceBy
  split <;> rfl

@[simp] theorem advanceBy_type (n : Nat) (c : Column) : (c.advanceBy n).type = c.type := by
  unfold advanceBy
  split <;> rfl

@[simp] theorem advanceBy_flags (n : Nat) (c : Column) : (c.advanceBy n).flags = c.flags := by
  unfold advanceBy
  split <;> rfl

@[simp] theorem advanceBy_default (n : Nat) (c : Column) :
    (c.advanceBy n).default = c.default := by
  unfold advanceBy
  split <;> rfl

@[simp] theorem advanceBy_fresh (n : Nat) (c : Column) : (c.advanceBy n).fresh = c.fresh := by
  unfold advanceBy fresh
  split <;> rfl

theorem advanceBy_advance (n : Nat) (c : Column) : c.advance.advanceBy n = c.advanceBy (n + 1) := by
  cases h : c.flags.autoIncrement <;> simp [advanceBy, advance, h, Nat.add_right_comm, Nat.add_assoc]

end Column

theorem setCell_of_lt {cells : List Value} {column : Nat} (h : column < cells.length) (v : Value) :
    setCell cells column v = cells.set column v := by
  simp [setCell, h]

namespace Table

variable {ρ : Type} [Record ρ]

@[simp] theorem length_freshCells (t : Table) : t.freshCells.length = t.columns.length := by
  simp [freshCells]

/-! ## Writes laid over cells -/

/-- The cells of a row after writes, by column number, in the order of the list. -/
def writeCells (cells : List Value) (writes : List (Nat × Value)) : List Value :=
  writes.foldl (fun cells write => setCell cells write.1 write.2) cells

@[simp] theorem writeCells_nil (cells : List Value) : writeCells cells [] = cells := rfl

theorem writeCells_cons (cells : List Value) (write : Nat × Value) (rest : List (Nat × Value)) :
    writeCells cells (write :: rest) = writeCells (setCell cells write.1 write.2) rest := rfl

theorem writeCells_append (cells : List Value) (first second : List (Nat × Value)) :
    writeCells cells (first ++ second) = writeCells (writeCells cells first) second :=
  List.foldl_append

theorem length_writeCells {cells : List Value} {writes : List (Nat × Value)}
    (h : ∀ write ∈ writes, write.1 < cells.length) :
    (writeCells cells writes).length = cells.length := by
  induction writes generalizing cells with
  | nil => rfl
  | cons write rest ih =>
      rw [List.forall_mem_cons] at h
      have hset : (setCell cells write.1 write.2).length = cells.length := by
        simp [setCell_of_lt h.1]
      rw [writeCells_cons, ih (fun w hw => hset ▸ h.2 w hw), hset]

/-- A cell that no write names stays. -/
theorem getElem?_writeCells_of_forall_ne {cells : List Value} {writes : List (Nat × Value)}
    {column : Nat} (h : ∀ write ∈ writes, write.1 < cells.length)
    (hne : ∀ write ∈ writes, write.1 ≠ column) :
    (writeCells cells writes)[column]? = cells[column]? := by
  induction writes generalizing cells with
  | nil => rfl
  | cons write rest ih =>
      rw [List.forall_mem_cons] at h hne
      have hset : (setCell cells write.1 write.2).length = cells.length := by
        simp [setCell_of_lt h.1]
      rw [writeCells_cons, ih (fun w hw => hset ▸ h.2 w hw) hne.2, setCell_of_lt h.1,
        List.getElem?_set_ne hne.1]

/-- Of the writes that name a cell the last counts. -/
theorem getElem?_writeCells_of_last {cells : List Value} {before after : List (Nat × Value)}
    {column : Nat} {v : Value} (h : ∀ write ∈ before ++ (column, v) :: after,
      write.1 < cells.length) (hlast : ∀ write ∈ after, write.1 ≠ column) :
    (writeCells cells (before ++ (column, v) :: after))[column]? = some v := by
  have hbefore : (writeCells cells before).length = cells.length :=
    length_writeCells fun w hw => h w (List.mem_append_left _ hw)
  have hcolumn : column < (writeCells cells before).length := by
    rw [hbefore]
    exact h (column, v) (by simp)
  rw [writeCells_append, writeCells_cons, getElem?_writeCells_of_forall_ne _ hlast,
    setCell_of_lt hcolumn, List.getElem?_set_self hcolumn]
  intro w hw
  rw [setCell_of_lt hcolumn, List.length_set, hbefore]
  exact h w (by simp [hw])

/-! ## A row behind the last one -/

/-- The table with one more row, which has the writes laid over what a fresh row holds. -/
def appendRow (t : Table) (writes : List (Nat × Value)) : Table :=
  ⟨t.columns.map Column.advance, t.rows ++ [.owned (writeCells t.freshCells writes)]⟩

@[simp] theorem appendRow_columns (t : Table) (writes : List (Nat × Value)) :
    (t.appendRow writes).columns = t.columns.map Column.advance := rfl

@[simp] theorem appendRow_rows (t : Table) (writes : List (Nat × Value)) :
    (t.appendRow writes).rows = t.rows ++ [.owned (writeCells t.freshCells writes)] := rfl

@[simp] theorem columnIndex?_appendRow (t : Table) (writes : List (Nat × Value)) (name : String) :
    (t.appendRow writes).columnIndex? name = t.columnIndex? name := by
  simp [columnIndex?, List.findIdx?_map, Function.comp_def]

theorem growBy_columns (t : Table) (n : Nat) :
    (t.growBy n).columns = t.columns.map (Column.advanceBy n) := by
  induction n generalizing t with
  | zero => simp [growBy]
  | succ n ih => simp [growBy, ih, appendFresh, Function.comp_def, Column.advanceBy_advance]

/-- The cell that a write leaves behind: its value is brought to the type of the column. -/
def Brings (t : Table) (write cell : Nat × Value) : Prop :=
  cell.1 = write.1 ∧ ∃ c, t.columns[write.1]? = some c ∧ write.2.coerce c.type = .ok cell.2

theorem Brings.lt_length {t : Table} {write cell : Nat × Value} (h : t.Brings write cell) :
    cell.1 < t.columns.length := by
  obtain ⟨hcell, c, hc, -⟩ := h
  exact hcell ▸ (List.getElem?_eq_some_iff.mp hc).1

/-- What was brought to the type of its column is written as it is. -/
theorem Brings.self {t : Table} {write cell : Nat × Value} (h : t.Brings write cell) :
    t.Brings cell cell := by
  obtain ⟨hcell, c, hc, hv⟩ := h
  exact ⟨rfl, c, hcell ▸ hc, Value.coerce_of_coerce hv⟩

/-- The cell that a value for a named column makes. -/
def PutsValue (t : Table) (entry : String × Value) (cell : Nat × Value) : Prop :=
  t.columnIndex? entry.1 = some cell.1 ∧ t.Brings (cell.1, entry.2) cell

theorem brings_of_putsValue {t : Table} {entries : List (String × Value)}
    {cells : List (Nat × Value)} (h : List.Forall₂ t.PutsValue entries cells) :
    List.Forall₂ t.Brings cells cells := by
  induction h with
  | nil => exact .nil
  | cons hfirst _ ih => exact .cons hfirst.2.self ih

/-- A new row changes nothing about where values go. -/
theorem putsValue_appendRow {t : Table} {writes : List (Nat × Value)} :
    (t.appendRow writes).PutsValue = t.PutsValue := by
  funext entry cell
  simp [PutsValue, Brings]

/-! ## One write -/

/-- A write is refused: there is no such column, or the value cannot be brought to its type. -/
def Refuses (t : Table) (column : Nat) (v : Value) (fault : Fault) : Prop :=
  t.columns[column]? = none ∧ fault = .argument (.columnIndex column) ∨
    ∃ c, t.columns[column]? = some c ∧ v.coerce c.type = .error fault

/-- A write is refused, or its column is there and takes the value. -/
theorem refuses_or_takes (t : Table) (column : Nat) (v : Value) :
    (∃ fault, t.Refuses column v fault) ∨
      ∃ c w, t.columns[column]? = some c ∧ v.coerce c.type = .ok w := by
  cases hc : t.columns[column]? with
  | none => exact .inl ⟨_, .inl ⟨hc, rfl⟩⟩
  | some c =>
      cases hv : v.coerce c.type with
      | error fault => exact .inl ⟨fault, .inr ⟨c, hc, hv⟩⟩
      | ok w => exact .inr ⟨c, w, rfl, hv⟩

end Table

namespace Sheet

variable {ρ : Type} {s : Sheet ρ}

/-- Where there are rows enough none is created. -/
theorem growTo_of_le {count : Nat} (h : count ≤ s.table.rows.length) : s.growTo count = s := by
  rw [growTo, Nat.sub_eq_zero_of_le h]
  rfl

theorem writeCell_owned [Record ρ] {row : Nat} {cells : List Value}
    (h : s.table.rows[row]? = some (.owned cells)) (column : Nat) (v : Value) :
    s.writeCell row column v
      = { s with table.rows := s.table.rows.set row (.owned (setCell cells column v)) } := by
  rw [writeCell, h]

/-- A write to the row that was appended is laid over it behind the others. -/
theorem writeCell_appendRow [Record ρ] (t : Table) (writes : List (Nat × Value))
    (records : Records ρ) (column : Nat) (v : Value) :
    (⟨t.appendRow writes, records⟩ : Sheet ρ).writeCell t.rows.length column v
      = ⟨t.appendRow (writes ++ [(column, v)]), records⟩ := by
  have hrow : (t.appendRow writes).rows[t.rows.length]?
      = some (.owned (Table.writeCells t.freshCells writes)) := by
    simp
  rw [writeCell_owned hrow]
  simp [Table.appendRow, Table.writeCells_append, Table.writeCells_cons]

end Sheet

namespace Edit

open Step

variable {ρ : Type} {s : Sheet ρ} {column : Nat} {v : Value}

theorem columnType_of_some {c : Column} (h : s.table.columns[column]? = some c) :
    columnType column s = .ok c.type s := by
  rw [columnType, bind_apply_ok (get_apply s)]
  simp only [h, pure_apply]

theorem columnType_of_none (h : s.table.columns[column]? = none) :
    columnType column s = .error (.argument (.columnIndex column)) s := by
  rw [columnType, bind_apply_ok (get_apply s)]
  simp only [h, throw_apply]

variable [Record ρ]

/-- A refused write stops at the column or at the value, which change nothing. -/
theorem set_of_refuses {fault : Fault} (h : s.table.Refuses column v fault) (row : Nat) :
    set row column v s = .error fault s := by
  rcases h with ⟨hc, rfl⟩ | ⟨c, hc, hv⟩
  · exact bind_eq_error.mpr (.inl (columnType_of_none hc))
  · rw [set, bind_apply_ok (columnType_of_some hc), hv]
    exact bind_eq_error.mpr (.inl (settle_error_apply fault s))

/-- A write that is not refused creates rows up to the cell, then sets it. -/
theorem set_of_takes {c : Column} {w : Value} (hc : s.table.columns[column]? = some c)
    (hv : v.coerce c.type = .ok w) (row : Nat) :
    set row column v s = .ok ⟨⟩ ((s.growTo (row + 1)).writeCell row column w) := by
  rw [set, bind_apply_ok (columnType_of_some hc), hv, bind_apply_ok (settle_ok_apply w s),
    bind_apply_ok (modify_apply _ s), modify_apply]

/-- What a write can do. -/
theorem set_cases (s : Sheet ρ) (row column : Nat) (v : Value) :
    (∃ fault, s.table.Refuses column v fault ∧ set row column v s = .error fault s) ∨
      ∃ c w, s.table.columns[column]? = some c ∧ v.coerce c.type = .ok w ∧
        set row column v s = .ok ⟨⟩ ((s.growTo (row + 1)).writeCell row column w) := by
  rcases s.table.refuses_or_takes column v with ⟨fault, hrefuses⟩ | ⟨c, w, hc, hv⟩
  · exact .inl ⟨fault, hrefuses, set_of_refuses hrefuses row⟩
  · exact .inr ⟨c, w, hc, hv, set_of_takes hc hv row⟩

/-! ## Writes to one row -/

/-- The first write behind the last row creates the row. -/
theorem set_behind {t : Table} {write cell : Nat × Value} (h : t.Brings write cell)
    (records : Records ρ) :
    set t.rows.length write.1 write.2 ⟨t, records⟩ = .ok ⟨⟩ ⟨t.appendRow [cell], records⟩ := by
  obtain ⟨column, w⟩ := cell
  obtain ⟨rfl, c, hc, hv⟩ := h
  have hcreated : (⟨t, records⟩ : Sheet ρ).growTo (t.rows.length + 1)
      = ⟨t.appendRow [], records⟩ := by
    simp [Sheet.growTo, Table.growBy, Table.appendFresh, Table.appendRow]
  rw [set_of_takes hc hv, hcreated, Sheet.writeCell_appendRow, List.nil_append]

/-- A later write to the created row finds it there. -/
theorem set_last {t : Table} {write cell : Nat × Value} (h : t.Brings write cell)
    (writes : List (Nat × Value)) (records : Records ρ) :
    set t.rows.length write.1 write.2 ⟨t.appendRow writes, records⟩
      = .ok ⟨⟩ ⟨t.appendRow (writes ++ [cell]), records⟩ := by
  obtain ⟨column, w⟩ := cell
  obtain ⟨rfl, c, hc, hv⟩ := h
  have hcolumn : (t.appendRow writes).columns[write.1]? = some c.advance := by simp [hc]
  rw [set_of_takes hcolumn ((c.advance_type).symm ▸ hv), Sheet.growTo_of_le (by simp),
    Sheet.writeCell_appendRow]

theorem setCells_last {t : Table} {writes cells : List (Nat × Value)}
    (h : List.Forall₂ t.Brings writes cells) (before : List (Nat × Value)) (records : Records ρ) :
    setCells t.rows.length writes ⟨t.appendRow before, records⟩
      = .ok ⟨⟩ ⟨t.appendRow (before ++ cells), records⟩ := by
  induction h generalizing before with
  | nil => rw [List.append_nil]; rfl
  | cons hfirst _ ih =>
      rw [setCells, bind_apply_ok (set_last hfirst before records), ih]
      simp

/-- Writes to one row behind the last create it and are laid over it. -/
theorem appendRow_apply {t : Table} {write : Nat × Value} {rest cells : List (Nat × Value)}
    (h : List.Forall₂ t.Brings (write :: rest) cells) (records : Records ρ) :
    appendRow (write :: rest) ⟨t, records⟩ = .ok ⟨⟩ ⟨t.appendRow cells, records⟩ := by
  cases h with
  | cons hfirst hrest =>
      rw [appendRow, bind_apply_ok (get_apply _), setCells,
        bind_apply_ok (set_behind hfirst records), setCells_last hrest]
      rfl

end Edit

end OnePassSql

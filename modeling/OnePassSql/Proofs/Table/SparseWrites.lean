import OnePassSql.Proofs.Table.Writing

/-!
Writes to any row, also far behind the last one. The rows in between are created one by one, each
with the next number of every automatic column; then one cell is written. Whatever can fail fails
before the first row is created, so a refused write leaves the table as it was.
-/

namespace OnePassSql

theorem Column.fill_advanceBy (c : Column) (n : Nat) :
    (c.advanceBy n).fill
      = if c.flags.autoIncrement then .integer (Int64.ofNat (c.counter + n)) else c.default := by
  by_cases h : c.flags.autoIncrement = true <;> simp [fill, advanceBy, h]

/-! ## One cell of a row -/

/-- Nulls behind the last cell are not told from missing cells. -/
theorem getD_append_nulls (cells : List Value) (n j : Nat) :
    (cells ++ List.replicate n .null)[j]?.getD .null = cells[j]?.getD .null := by
  by_cases hj : j < cells.length
  · rw [List.getElem?_append_left hj]
  · rw [List.getElem?_append_right (Nat.le_of_not_lt hj), List.getElem?_replicate,
      List.getElem?_eq_none (Nat.le_of_not_lt hj)]
    split <;> rfl

/-- The cell that was set, and all others as they were. -/
theorem getD_setCell (cells : List Value) (column j : Nat) (v : Value) :
    (setCell cells column v)[j]?.getD .null
      = if j = column then v else cells[j]?.getD .null := by
  by_cases hcolumn : column < cells.length
  · rw [setCell_of_lt hcolumn, List.getElem?_set]
    by_cases hj : column = j
    · subst hj
      simp [hcolumn]
    · simp [hj, Ne.symm hj]
  · rw [setCell, if_neg hcolumn]
    have hpadded : (cells ++ List.replicate (column - cells.length) Value.null).length
        = column := by
      rw [List.length_append, List.length_replicate]
      omega
    rcases Nat.lt_trichotomy j column with hlt | rfl | hgt
    · rw [List.getElem?_append_left (hpadded.symm ▸ hlt), getD_append_nulls,
        if_neg (Nat.ne_of_lt hlt)]
    · rw [List.getElem?_append_right (Nat.le_of_eq hpadded), hpadded, Nat.sub_self, if_pos rfl]
      rfl
    · rw [if_neg (Nat.ne_of_gt hgt), List.getElem?_eq_none, List.getElem?_eq_none]
      · omega
      · rw [List.length_append, hpadded, List.length_singleton]
        exact hgt

namespace Table

variable {ρ : Type} [Record ρ] {t : Table}

/-- No row is linked to a record. -/
def OwnsRows (t : Table) : Prop := ∀ row ∈ t.rows, ∃ cells, row = .owned cells

/-! ## Created rows -/

/-- The `k`-th of the rows that are created holds the `k`-th next number of each automatic column
and the defaults of the others. -/
theorem growBy_rows (t : Table) (n : Nat) :
    (t.growBy n).rows = t.rows ++ (List.range n).map fun k =>
      .owned (t.columns.map fun c => (c.advanceBy k).fill) := by
  induction n generalizing t with
  | zero => simp [growBy]
  | succ n ih =>
      rw [growBy, ih, List.range_succ_eq_map]
      simp [appendFresh, freshCells, Function.comp_def, Column.advanceBy_advance]

theorem OwnsRows.growBy (h : t.OwnsRows) (n : Nat) : (t.growBy n).OwnsRows := by
  intro row hrow
  rw [growBy_rows, List.mem_append, List.mem_map] at hrow
  rcases hrow with hold | ⟨k, -, rfl⟩
  · exact h row hold
  · exact ⟨_, rfl⟩

theorem cell_of_owned {row : Nat} {cells : List Value} (h : t.rows[row]? = some (.owned cells))
    (records : Records ρ) (j : Nat) : t.cell records row j = cells[j]?.getD .null := by
  rw [cell, h]
  rfl

/-- A cell in one of the rows that are created. -/
theorem cell_growBy {n k j : Nat} {c : Column} (hk : k < n) (hc : t.columns[j]? = some c)
    (records : Records ρ) : (t.growBy n).cell records (t.rows.length + k) j
      = if c.flags.autoIncrement then .integer (Int64.ofNat (c.counter + k)) else c.default := by
  have hrow : (t.growBy n).rows[t.rows.length + k]?
      = some (.owned (t.columns.map fun c => (c.advanceBy k).fill)) := by
    rw [growBy_rows, List.getElem?_append_right (Nat.le_add_right _ _), Nat.add_sub_cancel_left]
    simp [hk]
  rw [cell_of_owned hrow]
  simp [hc, Column.fill_advanceBy]

theorem cell_growBy_of_lt {n row : Nat} (h : row < t.rows.length) (records : Records ρ) (j : Nat) :
    (t.growBy n).cell records row j = t.cell records row j := by
  rw [cell, cell, growBy_rows, List.getElem?_append_left h]

/-! ## The write -/

theorem length_growBy (t : Table) (row : Nat) :
    (t.growBy (row + 1 - t.rows.length)).rows.length = max t.rows.length (row + 1) := by
  rw [growBy_rows, List.length_append, List.length_map, List.length_range]
  omega

/-- Once rows are created up to it, a table of owned rows has the row that is written. -/
theorem OwnsRows.exists_row (h : t.OwnsRows) (row : Nat) :
    ∃ cells, (t.growBy (row + 1 - t.rows.length)).rows[row]? = some (.owned cells) := by
  have hlt : row < (t.growBy (row + 1 - t.rows.length)).rows.length := by
    rw [length_growBy]
    exact Nat.le_max_right _ _
  obtain ⟨cells, hcells⟩ := h.growBy _ _ (List.getElem_mem hlt)
  exact ⟨cells, by rw [List.getElem?_eq_getElem hlt, hcells]⟩

/-- What writing `w` into a cell makes of a table: rows up to that cell, each with the next numbers
of the automatic columns and the defaults of the others, and nothing else. -/
structure WritesCell (records : Records ρ) (t t' : Table) (row column : Nat) (w : Value) :
    Prop where
  rowCount : t'.rows.length = max t.rows.length (row + 1)
  written : t'.cell records row column = w
  kept (i j : Nat) : i < t.rows.length → (i, j) ≠ (row, column) →
    t'.cell records i j = t.cell records i j
  created (k j : Nat) (c : Column) : t.rows.length + k < t'.rows.length →
    t.columns[j]? = some c → (t.rows.length + k, j) ≠ (row, column) →
    t'.cell records (t.rows.length + k) j
      = if c.flags.autoIncrement then .integer (Int64.ofNat (c.counter + k)) else c.default
  columns : t'.columns = t.columns.map fun c =>
    if c.flags.autoIncrement then
      { c with counter := c.counter + (t'.rows.length - t.rows.length) }
    else c
  owned : t'.OwnsRows

end Table

namespace Sheet

variable {ρ : Type} [Record ρ] {s : Sheet ρ} {row : Nat} {cells : List Value}

/-- What is read once a cell of an owned row was written: the cell, and all others as they were. -/
theorem cell_writeCell (h : s.table.rows[row]? = some (.owned cells)) (column : Nat) (v : Value)
    (records : Records ρ) (i j : Nat) : (s.writeCell row column v).table.cell records i j
      = if (i, j) = (row, column) then v else s.table.cell records i j := by
  rw [writeCell_owned h]
  by_cases hi : i = row
  · subst hi
    have hwritten := List.getElem?_set_self (a := Row.owned (setCell cells column v))
      (List.getElem?_eq_some_iff.mp h).1
    rw [Table.cell_of_owned hwritten, getD_setCell, Table.cell_of_owned h]
    simp
  · rw [if_neg fun heq => hi (Prod.mk.inj heq).1, Table.cell, Table.cell,
      List.getElem?_set_ne (Ne.symm hi)]

/-- Rows are created up to the cell and the cell is set, and no record is touched. -/
theorem writesCell (h : s.table.OwnsRows) (row column : Nat) (w : Value) :
    s.table.WritesCell s.records ((s.growTo (row + 1)).writeCell row column w).table row column w ∧
      ((s.growTo (row + 1)).writeCell row column w).records = s.records := by
  obtain ⟨cells, hrow⟩ := h.exists_row row
  have hgrown : (s.growTo (row + 1)).table.rows[row]? = some (.owned cells) := hrow
  have hcell := cell_writeCell hgrown column w s.records
  have hlength : ((s.growTo (row + 1)).writeCell row column w).table.rows.length
      = max s.table.rows.length (row + 1) := by
    rw [writeCell_owned hgrown, List.length_set]
    exact s.table.length_growBy row
  refine ⟨⟨hlength, ?_, ?_, ?_, ?_, ?_⟩, ?_⟩
  · rw [hcell, if_pos rfl]
  · intro i j hi hne
    rw [hcell, if_neg hne]
    exact Table.cell_growBy_of_lt hi s.records j
  · intro k j c hk hc hne
    rw [hlength] at hk
    rw [hcell, if_neg hne]
    exact Table.cell_growBy (by omega) hc s.records
  · rw [hlength, show max s.table.rows.length (row + 1) - s.table.rows.length
      = row + 1 - s.table.rows.length by omega, writeCell_owned hgrown]
    exact s.table.growBy_columns _
  · rw [writeCell_owned hgrown]
    intro r hr
    rcases List.mem_or_eq_of_mem_set hr with hold | rfl
    · exact h.growBy _ r hold
    · exact ⟨_, rfl⟩
  · rw [writeCell_owned hgrown]
    rfl

end Sheet

namespace Edit

variable {ρ : Type} [Record ρ]

/-- A write to a table of owned rows does nothing at all if there is no such column or the value
cannot be brought to its type. Otherwise it goes through, and sets one cell of a table that has rows
up to there. -/
theorem set_writes_cell (s : Sheet ρ) (h : s.table.OwnsRows) (row column : Nat) (v : Value) :
    (∀ fault s', set row column v s = .error fault s' ↔
      s' = s ∧ s.table.Refuses column v fault) ∧
    ∀ c w, s.table.columns[column]? = some c → v.coerce c.type = .ok w →
      ∃ s', set row column v s = .ok ⟨⟩ s' ∧ s'.records = s.records ∧
        s.table.WritesCell s.records s'.table row column w := by
  refine ⟨fun fault s' => ⟨fun herror => ?_, ?_⟩, fun c w hc hv => ?_⟩
  · rcases set_cases s row column v with ⟨fault', hrefuses, hset⟩ | ⟨c, w, -, -, hset⟩
    · cases hset.symm.trans herror
      exact ⟨rfl, hrefuses⟩
    · cases hset.symm.trans herror
  · rintro ⟨rfl, hrefuses⟩
    exact set_of_refuses hrefuses row
  · obtain ⟨hwrites, hrecords⟩ := Sheet.writesCell h row column w
    exact ⟨_, set_of_takes hc hv row, hrecords, hwrites⟩

/-- A write three rows behind the last one, into the automatic column itself; and a write of a text
that is no number. -/
theorem set_writes_cell_behind :
    let columns (counter : Nat) : List Column :=
      [⟨"id", .integer, ⟨false, true, true⟩, .null, counter⟩,
        ⟨"unit", .text, .empty, .text "kg", 0⟩, .plain "note" .text]
    let first : Row := .owned [.integer 4, .text "g", .null]
    let stock : Table := ⟨columns 5, [first]⟩
    let filled : Table := ⟨columns 8, [first, .owned [.integer 5, .text "kg", .null],
      .owned [.integer 6, .text "kg", .null], .owned [.integer 70, .text "kg", .null]]⟩
    let s : Sheet CellRecord := ⟨stock, ⟨[]⟩⟩
    stock.OwnsRows ∧ set 3 0 (.text "70") s = .ok ⟨⟩ ⟨filled, ⟨[]⟩⟩ ∧
      stock.WritesCell s.records filled 3 0 (.integer 70) ∧
      set 3 0 (.text "seven") s = .error (.coercion "seven" .integer) s := by
  intro columns first stock filled s
  have howned : stock.OwnsRows := List.forall_mem_singleton.mpr ⟨_, rfl⟩
  have htakes : (Value.text "70").coerce .integer = .ok (.integer 70) := by decide +kernel
  have hrefuses : (Value.text "seven").coerce .integer = .error (.coercion "seven" .integer) := by
    decide +kernel
  have hrun : set 3 0 (.text "70") s = .ok ⟨⟩ ⟨filled, ⟨[]⟩⟩ := by
    rw [set_of_takes (c := (columns 5)[0]) rfl htakes]
    rfl
  obtain ⟨s', hset, -, hwrites⟩ := (set_writes_cell s howned 3 0 (.text "70")).2 _ _ rfl htakes
  cases hrun.symm.trans hset
  refine ⟨howned, hrun, hwrites, ?_⟩
  exact ((set_writes_cell s howned 3 0 (.text "seven")).1 _ s).mpr ⟨rfl, .inr ⟨_, rfl, hrefuses⟩⟩

end Edit

end OnePassSql

import Mathlib.Data.List.Nodup
import OnePassSql.Proofs.Table.SparseWrites
import OnePassSql.Proofs.Table.Union

/-!
Two tables united, read by the names of the columns. The columns of the second table stand behind
those of the first, so a name that both have means a column of the first. There a copied row shows
what it held under the name, and in all other columns what a new row is filled with.
-/

namespace OnePassSql

namespace Table

variable {ρ : Type} [Record ρ] {t other : Table}

/-! ## Names and places -/

theorem exists_column_of_columnIndex? {name : String} {j : Nat}
    (h : t.columnIndex? name = some j) : ∃ c, t.columns[j]? = some c ∧ c.name = name := by
  obtain ⟨hlt, hname, -⟩ := List.findIdx?_eq_some_iff_getElem.mp h
  exact ⟨_, List.getElem?_eq_getElem hlt, by simpa using hname⟩

theorem exists_columnIndex? {c : Column} (h : c ∈ t.columns) :
    ∃ j, t.columnIndex? c.name = some j := by
  cases hindex : t.columnIndex? c.name with
  | none => simpa using List.findIdx?_eq_none_iff.mp hindex c h
  | some j => exact ⟨j, rfl⟩

/-- The writes copy a row by the names of its columns: each value goes to the first column of its
name, and all other cells stay. -/
structure CopiesByName (t : Table) (columns : List Column) (vals : List Value)
    (writes : List (Nat × Value)) : Prop where
  puts : List.Forall₂ t.PutsValue ((columns.map Column.name).zip vals) writes
  named (cells : List Value) (k j : Nat) (c : Column) : cells.length = t.columns.length →
    columns[k]? = some c → t.columnIndex? c.name = some j →
    (writeCells cells writes)[j]? = vals[k]?
  others (cells : List Value) (j : Nat) : cells.length = t.columns.length →
    (∀ c ∈ columns, t.columnIndex? c.name ≠ some j) → (writeCells cells writes)[j]? = cells[j]?

/-- A value before a row that is copied by names, for a column whose place no other column has. -/
theorem CopiesByName.cons {c : Column} {v : Value} {columns : List Column} {vals : List Value}
    {place : Nat} {writes : List (Nat × Value)} (h : t.CopiesByName columns vals writes)
    (hputs : t.PutsValue (c.name, v) (place, v)) (hplace : t.columnIndex? c.name = some place)
    (hlater : ∀ d ∈ columns, t.columnIndex? d.name ≠ some place) :
    t.CopiesByName (c :: columns) (v :: vals) ((place, v) :: writes) := by
  have hset : ∀ cells : List Value, cells.length = t.columns.length →
      place < cells.length ∧ (setCell cells place v).length = t.columns.length ∧
        setCell cells place v = cells.set place v := by
    intro cells hcells
    obtain ⟨d, hd, -⟩ := exists_column_of_columnIndex? hplace
    have hlt : place < cells.length := hcells ▸ (List.getElem?_eq_some_iff.mp hd).1
    rw [setCell_of_lt hlt, List.length_set]
    exact ⟨hlt, hcells, rfl⟩
  refine ⟨.cons hputs h.puts, fun cells k j d hcells hd hj => ?_, fun cells j hcells hj => ?_⟩
  · obtain ⟨hlt, hlength, heq⟩ := hset cells hcells
    rw [writeCells_cons]
    cases k with
    | zero =>
        cases hd
        cases hplace.symm.trans hj
        rw [h.others _ place hlength hlater, heq, List.getElem?_set_self hlt]
        rfl
    | succ k => exact h.named _ k j d hlength hd hj
  · obtain ⟨-, hlength, heq⟩ := hset cells hcells
    rw [List.forall_mem_cons] at hj
    have hne : place ≠ j := fun h => hj.1 (h ▸ hplace)
    rw [writeCells_cons, h.others _ j hlength hj.2, heq, List.getElem?_set_ne hne]

/-- Rows of distinct columns that all have a place of their type can be copied. -/
theorem exists_copiesByName {columns : List Column} {vals : List Value}
    (hvals : List.Forall₂ (fun c v => v.fits c.type = true) columns vals)
    (hdistinct : (columns.map Column.name).Nodup)
    (hplaces : ∀ c ∈ columns, ∃ j d, t.columnIndex? c.name = some j ∧ t.columns[j]? = some d ∧
      d.type = c.type) : ∃ writes, t.CopiesByName columns vals writes := by
  induction hvals with
  | nil => exact ⟨[], .nil, fun _ _ _ _ _ hc => (nomatch hc), fun _ _ _ _ => rfl⟩
  | @cons c v columns vals hfits _ ih =>
      rw [List.map_cons, List.nodup_cons] at hdistinct
      rw [List.forall_mem_cons] at hplaces
      obtain ⟨writes, hcopies⟩ := ih hdistinct.2 hplaces.2
      obtain ⟨place, d, hplace, hd, htype⟩ := hplaces.1
      have hputs : t.PutsValue (c.name, v) (place, v) :=
        ⟨hplace, rfl, d, hd, htype ▸ Value.coerce_of_fits hfits⟩
      refine ⟨_, hcopies.cons hputs hplace fun e he hsame => ?_⟩
      -- no later value goes to the place of the first, as a place has one name only
      obtain ⟨d', hd', hname⟩ := exists_column_of_columnIndex? hsame
      obtain ⟨d'', hd'', hname'⟩ := exists_column_of_columnIndex? hplace
      cases hd'.symm.trans hd''
      exact hdistinct.1 (hname' ▸ hname ▸ List.mem_map_of_mem he)

/-! ## Tables of typed rows -/

/-- The table holds all its rows itself, and each has for every column a value that is null or of
the kind of the column's type. -/
def HoldsTyped (t : Table) : Prop :=
  ∀ row ∈ t.rows, ∃ cells, row = .owned cells ∧
    List.Forall₂ (fun c v => v.fits c.type = true) t.columns cells

theorem HoldsTyped.exists_rows (h : t.HoldsTyped) : ∃ rows : List (List Value),
    t.rows = rows.map Row.owned ∧
      ∀ cells ∈ rows, List.Forall₂ (fun c v => v.fits c.type = true) t.columns cells := by
  obtain ⟨rows, hrows⟩ := Result.exists_forall₂ h
  refine ⟨rows, ?_, fun cells hcells => ?_⟩
  · rw [← List.forall₂_eq_eq_eq, List.forall₂_map_right_iff]
    exact hrows.imp fun _ _ hrow => hrow.1
  · obtain ⟨i, hi⟩ := List.mem_iff_getElem?.mp hcells
    obtain ⟨row, -, hrow⟩ := Result.exists_left_of_forall₂ hrows hi
    exact hrow.2

/-- Same-named columns of the two tables have the same type. -/
def AgreesInTypes (t other : Table) : Prop :=
  ∀ c ∈ t.columns, ∀ d ∈ other.columns, c.name = d.name → c.type = d.type

/-- The columns that two tables have together. Those of the second are behind those of the first and
count from the start. -/
def joinedColumns (t other : Table) : List Column := t.columns ++ other.columns.map Column.fresh

/-- Every column of the second table has a place by its name, with the same type. -/
theorem AgreesInTypes.exists_place (h : t.AgreesInTypes other)
    (hdistinct : (other.columns.map Column.name).Nodup) {c : Column} (hc : c ∈ other.columns) :
    ∃ j d, columnIndex? ⟨t.joinedColumns other, []⟩ c.name = some j ∧
      (t.joinedColumns other)[j]? = some d ∧ d.type = c.type := by
  have hfresh : c.fresh ∈ t.joinedColumns other :=
    List.mem_append_right _ (List.mem_map_of_mem hc)
  obtain ⟨j, hj⟩ := exists_columnIndex? (t := ⟨t.joinedColumns other, []⟩) hfresh
  obtain ⟨d, hd, hname⟩ := exists_column_of_columnIndex? hj
  refine ⟨j, d, hj, hd, ?_⟩
  rcases List.mem_append.mp (List.mem_of_getElem? hd) with hown | hnew
  · exact h d hown c hc hname
  · obtain ⟨e, he, rfl⟩ := List.mem_map.mp hnew
    rw [List.inj_on_of_nodup_map hdistinct he hc hname]
    rfl

/-! ## The united table -/

/-- What the table `t'` is that `t` becomes with the columns and rows of `other` behind its own. -/
structure KeepsBoth (records : Records ρ) (t other t' : Table) : Prop where
  columns : t'.columns = (t.joinedColumns other).map (Column.advanceBy other.rows.length)
  rowCount : t'.rows.length = t.rows.length + other.rows.length
  owned : t'.OwnsRows
  kept (i j : Nat) : i < t.rows.length → j < t.columns.length →
    t'.cell records i j = t.cell records i j
  widened (i j : Nat) (c : Column) : i < t.rows.length → other.columns[j]? = some c →
    t'.cell records i (t.columns.length + j) = c.default
  copied (i k : Nat) (c : Column) : i < other.rows.length → other.columns[k]? = some c →
    ∃ j, t'.columnIndex? c.name = some j ∧
      t'.cell records (t.rows.length + i) j = other.cell records i k
  filled (i j : Nat) (c : Column) : i < other.rows.length →
    (t.joinedColumns other)[j]? = some c →
    (∀ d ∈ other.columns, t'.columnIndex? d.name ≠ some j) →
    t'.cell records (t.rows.length + i) j
      = if c.flags.autoIncrement then .integer (Int64.ofNat (c.counter + i)) else c.default

/-- The table of the united columns in which `rows` have the defaults of the second table's columns
behind them, and each row behind those has writes laid over what it was filled with. -/
def united (t other : Table) (rows : List (List Value)) (writes : List (List (Nat × Value))) :
    Table :=
  ⟨(t.joinedColumns other).map (Column.advanceBy writes.length),
    (rows.map fun row => row ++ other.columns.map Column.default).map Row.owned ++
      writes.mapIdx fun i cells => .owned (writeCells
        ((t.joinedColumns other).map fun c => (c.advanceBy i).fill) cells)⟩

section United

variable {rows : List (List Value)} {writes : List (List (Nat × Value))}

theorem ownsRows_united : (t.united other rows writes).OwnsRows := by
  intro row hrow
  rcases List.mem_append.mp hrow with hold | hnew
  · obtain ⟨cells, -, rfl⟩ := List.mem_map.mp hold
    exact ⟨cells, rfl⟩
  · obtain ⟨i, hi, rfl⟩ := List.mem_mapIdx.mp hnew
    exact ⟨_, rfl⟩

theorem columnIndex?_united (name : String) : (t.united other rows writes).columnIndex? name
    = columnIndex? ⟨t.joinedColumns other, []⟩ name := by
  simp [united, columnIndex?, List.findIdx?_map, Function.comp_def]

theorem cell_united_of_lt {i : Nat} {row : List Value} (hrow : rows[i]? = some row)
    (records : Records ρ) (j : Nat) : (t.united other rows writes).cell records i j
      = (row ++ other.columns.map Column.default)[j]?.getD .null := by
  obtain ⟨hi, rfl⟩ := List.getElem?_eq_some_iff.mp hrow
  refine cell_of_owned ?_ records j
  simp [united, List.getElem?_append_left, hi]

theorem cell_united_behind {i : Nat} {cells : List (Nat × Value)} (hcells : writes[i]? = some cells)
    (records : Records ρ) (j : Nat) : (t.united other rows writes).cell records (rows.length + i) j
      = (writeCells ((t.joinedColumns other).map fun c => (c.advanceBy i).fill) cells)[j]?.getD
          .null := by
  refine cell_of_owned ?_ records j
  simp [united, List.getElem?_append_right, hcells]

/-- United with writes that copy the rows of the second table, a table keeps both. -/
theorem keepsBoth_united {others : List (List Value)} (hrows : t.rows = rows.map Row.owned)
    (hwidth : ∀ row ∈ rows, row.length = t.columns.length)
    (hothers : other.rows = others.map Row.owned)
    (hplaces : ∀ c ∈ other.columns, ∃ j, columnIndex? ⟨t.joinedColumns other, []⟩ c.name = some j)
    (hwrites : List.Forall₂ (CopiesByName ⟨t.joinedColumns other, []⟩ other.columns) others writes)
    (records : Records ρ) : KeepsBoth records t other (t.united other rows writes) := by
  have hcount : t.rows.length = rows.length := by rw [hrows, List.length_map]
  have hcountOther : other.rows.length = writes.length := by
    rw [hothers, List.length_map, hwrites.length_eq]
  have hold : ∀ i < t.rows.length, ∃ row, rows[i]? = some row ∧
      row.length = t.columns.length ∧ t.rows[i]? = some (.owned row) := by
    intro i hi
    obtain ⟨row, hrow⟩ : ∃ row, rows[i]? = some row :=
      ⟨_, List.getElem?_eq_getElem (hcount ▸ hi)⟩
    exact ⟨row, hrow, hwidth row (List.mem_of_getElem? hrow), by simp [hrows, hrow]⟩
  have hnew : ∀ i < other.rows.length, ∃ vals cells, other.rows[i]? = some (.owned vals) ∧
      writes[i]? = some cells ∧
      CopiesByName ⟨t.joinedColumns other, []⟩ other.columns vals cells := by
    intro i hi
    obtain ⟨cells, hcells⟩ : ∃ cells, writes[i]? = some cells :=
      ⟨_, List.getElem?_eq_getElem (hcountOther ▸ hi)⟩
    obtain ⟨vals, hvals, hcopies⟩ := Result.exists_left_of_forall₂ hwrites hcells
    exact ⟨vals, cells, by simp [hothers, hvals], hcells, hcopies⟩
  constructor
  case columns =>
    rw [hcountOther]
    rfl
  case rowCount => simp [united, hcount, hcountOther]
  case owned => exact ownsRows_united
  case kept =>
    intro i j hi hj
    obtain ⟨row, hrow, hlength, howned⟩ := hold i hi
    rw [cell_united_of_lt hrow, cell_of_owned howned, List.getElem?_append_left (hlength ▸ hj)]
  case widened =>
    intro i j c hi hc
    obtain ⟨row, hrow, hlength, -⟩ := hold i hi
    rw [cell_united_of_lt hrow, ← hlength, List.getElem?_append_right (Nat.le_add_right _ _),
      Nat.add_sub_cancel_left, List.getElem?_map, hc]
    rfl
  case copied =>
    intro i k c hi hc
    obtain ⟨vals, cells, howned, hcells, hcopies⟩ := hnew i hi
    obtain ⟨j, hj⟩ := hplaces c (List.mem_of_getElem? hc)
    refine ⟨j, (columnIndex?_united _).trans hj, ?_⟩
    rw [hcount, cell_united_behind hcells, cell_of_owned howned,
      hcopies.named _ k j c (List.length_map _) hc hj]
  case filled =>
    intro i j c hi hc hother
    obtain ⟨vals, cells, -, hcells, hcopies⟩ := hnew i hi
    simp only [columnIndex?_united] at hother
    rw [hcount, cell_united_behind hcells, hcopies.others _ j (List.length_map _) hother,
      List.getElem?_map, hc, Option.map_some, Option.getD_some, Column.fill_advanceBy]

end United

end Table

namespace Edit

open Table

variable {ρ : Type} [Record ρ] {t other : Table}

/-! ## The union as it is asked for -/

/-- The number of a row here that equals a row of the other table. Rows are not compared, so there
is none. -/
def equalRow? (_other : Table) (_row : Nat) : Edit ρ (Option Nat) := return none

/-- Copies rows behind the rows that are there; without duplicates only those that no row here
equals. -/
def copyRowsUnless (duplicates : Bool) (source : Table) : List Nat → Edit ρ Unit
  | [] => return
  | row :: rest => do
    if duplicates || (← equalRow? source row).isNone then
      copyCells source row (← get).table.rows.length 0 source.columns
    copyRowsUnless duplicates source rest

/-- Appends the columns and then the rows of another table, with duplicates or without. -/
def unionAsked (duplicates : Bool) (other : Table) : Edit ρ Unit := do
  addColumns other.columns
  copyRowsUnless duplicates other (List.range other.rows.length)

/-- Asking for no duplicates makes no difference, as none are found. -/
theorem unionAsked_eq (duplicates : Bool) (other : Table) :
    (unionAsked duplicates other : Edit ρ Unit) = union other := by
  have hrows : ∀ rows, (copyRowsUnless duplicates other rows : Edit ρ Unit)
      = copyRows other rows := by
    intro rows
    induction rows with
    | nil => rfl
    | cons row rest ih =>
        rw [copyRowsUnless, copyRows, ih]
        cases duplicates <;> rfl
  rw [unionAsked, union, hrows]

/-- The union of two tables of typed rows goes through, whether duplicates are asked for or not, and
keeps both tables. -/
theorem unionAsked_keeps_both (duplicates : Bool) (ht : t.HoldsTyped) (hother : other.HoldsTyped)
    (hne : other.columns ≠ []) (hdistinct : (other.columns.map Column.name).Nodup)
    (htypes : t.AgreesInTypes other) (records : Records ρ) :
    ∃ t', unionAsked duplicates other ⟨t, records⟩ = .ok ⟨⟩ ⟨t', records⟩ ∧
      KeepsBoth records t other t' := by
  obtain ⟨rows, hrows, hwidths⟩ := ht.exists_rows
  obtain ⟨others, hothers, hvals⟩ := hother.exists_rows
  have hplaces := fun c hc => htypes.exists_place hdistinct (c := c) hc
  obtain ⟨writes, hwrites⟩ := Result.exists_forall₂ fun vals hmem =>
    exists_copiesByName (t := ⟨t.joinedColumns other, []⟩) (hvals vals hmem) hdistinct hplaces
  have hunion := union_apply hrows hothers (fun vals hmem => ⟨(hvals vals hmem).length_eq, hne⟩)
    (hwrites.imp fun _ _ h => h.puts) records
  rw [hwrites.length_eq] at hunion
  rw [unionAsked_eq]
  refine ⟨t.united other rows writes, hunion,
    keepsBoth_united hrows (fun row hrow => (hwidths row hrow).length_eq.symm) hothers
      (fun c hc => ?_) hwrites records⟩
  obtain ⟨j, -, hj, -⟩ := hplaces c hc
  exact ⟨j, hj⟩

/-- Two tables with the name of one column in common. The second knows no number for its rows and
the first no unit; the second row that is copied has a null where both have a column. -/
theorem unionAsked_keeps_both_stock :
    let id : Column := ⟨"id", .integer, ⟨false, true, true⟩, .null, 1⟩
    let name : Column := ⟨"name", .text, .empty, .text "none", 0⟩
    let unit : Column := ⟨"unit", .text, .empty, .text "kg", 0⟩
    let stock : Table := ⟨[id, name], [.owned [.integer 0, .text "salt"]]⟩
    let delivery : Table := ⟨[unit, name], [.owned [.text "g", .text "tea"], .owned [.null, .null]]⟩
    let united : Table := ⟨[{ id with counter := 3 }, name, unit, name],
      [.owned [.integer 0, .text "salt", .text "kg", .text "none"],
        .owned [.integer 1, .text "tea", .text "g", .text "none"],
        .owned [.integer 2, .null, .null, .text "none"]]⟩
    let records : Records CellRecord := ⟨[]⟩
    stock.HoldsTyped ∧ delivery.HoldsTyped ∧ stock.AgreesInTypes delivery ∧
      unionAsked false delivery ⟨stock, records⟩ = .ok ⟨⟩ ⟨united, records⟩ ∧
      KeepsBoth records stock delivery united := by
  intro id name unit stock delivery united records
  have hstock : stock.HoldsTyped := List.forall_mem_singleton.mpr
    ⟨_, rfl, .cons rfl (.cons rfl .nil)⟩
  have hdelivery : delivery.HoldsTyped := List.forall_mem_cons.mpr
    ⟨⟨_, rfl, .cons rfl (.cons rfl .nil)⟩,
      List.forall_mem_singleton.mpr ⟨_, rfl, .cons rfl (.cons rfl .nil)⟩⟩
  have hagrees : stock.AgreesInTypes delivery := by
    unfold AgreesInTypes
    decide
  obtain ⟨t', hunion, hkeeps⟩ := unionAsked_keeps_both false hstock hdelivery
    (List.cons_ne_nil _ _) (by decide) hagrees records
  have hafter : (Step.stateAfter (unionAsked false delivery) ⟨stock, records⟩).table = united := by
    decide +kernel
  rw [Step.stateAfter_of_ok hunion] at hafter
  dsimp only at hafter
  subst hafter
  exact ⟨hstock, hdelivery, hagrees, hunion, hkeeps⟩

end Edit

end OnePassSql

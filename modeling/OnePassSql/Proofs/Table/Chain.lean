import Mathlib.Algebra.GroupWithZero.Nat
import OnePassSql.Proofs.Table.Accumulation

/-!
What is read, by the names of the columns, of tables that were united one after the other: the rows
of the last table, and under them what stands under the columns of the first.
-/

namespace OnePassSql

namespace Table

variable {c : Table}

/-! ## What shows of a chain of tables -/

/-- The cells of the rows that the table holds itself. -/
def cellRows (t : Table) : List (List Value) :=
  t.rows.map fun
    | .owned cells => cells
    | .linked _ => []

theorem cellRows_of_owned {t : Table} {rows : List (List Value)}
    (h : t.rows = rows.map Row.owned) : t.cellRows = rows := by
  simp [cellRows, h, Function.comp_def]

/-- What stands under the columns of the first table when the tables, the last one first, are
united. -/
def behindRows (first : Table) : List Table → List (List Value)
  | [] => []
  | [c] => c.cellRows
  | c :: d :: rest => List.replicate c.rows.length first.blankRow
      ++ (List.range ((d :: rest).map fun t => t.rows.length).sum).map first.refilledRow

/-- What shows under the names of the columns when the tables, the last one first, are united. -/
def shownRows (first : Table) : List Table → List (List Value)
  | [] => []
  | [c] => c.cellRows
  | c :: d :: rest => c.cellRows ++ (behindRows first (d :: rest)).map first.broughtRow

theorem length_behindRows (first : Table) (tables : List Table) :
    (behindRows first tables).length = (tables.map fun d => d.rows.length).sum := by
  match tables with
  | [] => rfl
  | [c] => simp [behindRows, cellRows]
  | c :: d :: rest => simp [behindRows]

theorem length_shownRows (first : Table) (tables : List Table) :
    (shownRows first tables).length = (tables.map fun d => d.rows.length).sum := by
  match tables with
  | [] => rfl
  | [c] => simp [shownRows, cellRows]
  | c :: d :: rest => simp [shownRows, cellRows, length_behindRows]

/-- One table more in the chain. -/
theorem Accumulates.cons {ρ : Type} [Record ρ] {first t : Table} {tables : List Table}
    (h : Accumulates first t (shownRows first tables) (behindRows first tables))
    (hne : tables ≠ [])
    (hheadings : c.columns.map Column.heading = first.columns.map Column.heading)
    (hdistinct : (c.columns.map Column.name).Nodup) {rows : List (List Value)}
    (hrows : c.rows = rows.map Row.owned) (htyped : c.WellTyped) (records : Records ρ) :
    ∃ t', Edit.union t ⟨c, records⟩ = .ok ⟨⟩ ⟨t', records⟩ ∧
      Accumulates first t' (shownRows first (c :: tables)) (behindRows first (c :: tables)) := by
  obtain ⟨d, rest, rfl⟩ := List.exists_cons_of_ne_nil hne
  obtain ⟨t', hunion, haccumulates⟩ := h.union hheadings hdistinct hrows htyped records
  refine ⟨t', hunion, ?_⟩
  rw [length_shownRows] at haccumulates
  simpa [shownRows, behindRows, cellRows_of_owned hrows, hrows] using haccumulates

/-! ## Reading by names -/

section Names

variable {ρ : Type} [Record ρ] (records : Records ρ)

/-- The cell of a row in the first column of the name. -/
def cellByName (t : Table) (row : Nat) (name : String) : Value :=
  match t.columnIndex? name with
  | some column => t.cell records row column
  | none => .null

/-- Every row read by the names of columns. -/
def readByNames (t : Table) (names : List String) : List (List Value) :=
  (List.range t.rows.length).map fun row => names.map (t.cellByName records row)

theorem cellByName_of_owned {t : Table} {i j : Nat} {name : String} {row : List Value} {v : Value}
    (hrow : t.rows[i]? = some (.owned row)) (hname : t.columnIndex? name = some j)
    (hv : row[j]? = some v) : t.cellByName records i name = v := by
  simp [cellByName, hname, cell, hrow, Row.cell, hv]

/-- By the names of its first columns a row shows its first cells. -/
theorem readByNames_eq {t : Table} {names others : List String}
    (hnames : t.columns.map Column.name = names ++ others) (hdistinct : names.Nodup)
    {rows : List (List Value)} (hrows : t.rows = rows.map Row.owned)
    (hwidth : ∀ row ∈ rows, t.columns.length = row.length) :
    t.readByNames records names = rows.map (List.take names.length) := by
  have hread : ∀ i row, rows[i]? = some row →
      names.map (t.cellByName records i) = row.take names.length := by
    intro i row hrow
    refine List.ext_getElem? fun j => ?_
    have hcolumns := congrArg List.length hnames
    rw [List.length_map, List.length_append, hwidth row (List.mem_of_getElem? hrow)] at hcolumns
    cases hname : names[j]? with
    | none =>
        have hj : names.length ≤ j := List.getElem?_eq_none_iff.mp hname
        rw [List.getElem?_map, hname, List.getElem?_take_eq_none hj]
        rfl
    | some name =>
        have hj : j < names.length := (List.getElem?_eq_some_iff.mp hname).1
        have hcell : t.cellByName records i name = row[j] :=
          cellByName_of_owned records (by rw [hrows, List.getElem?_map, hrow]; rfl)
            (columnIndex?_of_names hnames hdistinct hname) (List.getElem?_eq_getElem (by omega))
        rw [List.getElem?_map, hname, List.getElem?_take_of_lt hj, Option.map_some, hcell,
          List.getElem?_eq_getElem (by omega)]
  refine List.ext_getElem? fun i => ?_
  cases hrow : rows[i]? with
  | none =>
      have hi : rows.length ≤ i := List.getElem?_eq_none_iff.mp hrow
      simp [readByNames, hrows, hi]
  | some row =>
      have hi : i < rows.length := (List.getElem?_eq_some_iff.mp hrow).1
      rw [readByNames, List.getElem?_map, hrows, List.length_map, List.getElem?_range hi,
        Option.map_some, hread i row hrow, List.getElem?_map, hrow, Option.map_some]

/-- By the names of its columns the views of an accumulated table are read. -/
theorem Accumulates.readByNames {first t : Table} {views tails : List (List Value)}
    (h : Accumulates first t views tails) (hdistinct : (first.columns.map Column.name).Nodup) :
    t.readByNames records (first.columns.map Column.name) = views := by
  obtain ⟨more, hmore⟩ := h.leading
  obtain ⟨front, back, rows, -, -, -, hrows, rfl, -⟩ := h.parts
  have hnames : t.columns.map Column.name = first.columns.map Column.name ++ more.map Prod.fst := by
    simpa [Function.comp_def, Column.heading] using congrArg (List.map Prod.fst) hmore
  rw [readByNames_eq records hnames hdistinct hrows fun row => h.typed.length_row hrows,
    List.length_map]

theorem Accumulates.length_rows {first t : Table} {views tails : List (List Value)}
    (h : Accumulates first t views tails) : t.rows.length = views.length := by
  obtain ⟨front, back, rows, -, -, -, hrows, rfl, -⟩ := h.parts
  rw [hrows, List.length_map, List.length_map]

end Names

/-! ## When all rows show -/

/-- Values that can be brought to the types of their columns stay the same only if they are of their
kinds. -/
theorem zipWith_brought_eq_self_iff {columns : List Column} {row : List Value}
    (h : List.Forall₂ Column.MayHold columns row) :
    List.zipWith (fun c v => v.brought c.type) columns row = row ↔
      List.Forall₂ (fun c v => v.fits c.type = true) columns row := by
  induction h with
  | nil => simp
  | cons hholds _ ih =>
      rw [List.zipWith_cons_cons, List.cons.injEq, List.forall₂_cons, ih,
        Value.brought_eq_self_iff hholds.coerce_eq]

theorem WellTyped.broughtRow_blankRow {t : Table} (h : t.WellTyped) :
    t.broughtRow t.blankRow = t.blankRow := by
  have hfits : List.Forall₂ (fun c (v : Value) => v.fits c.type = true) t.columns t.blankRow := by
    rw [blankRow, List.forall₂_map_right_iff, List.forall₂_same]
    exact h.defaults
  exact (zipWith_brought_eq_self_iff (hfits.imp fun _ _ => .inl)).mpr hfits

/-- When every row shows of tables that are united, the last one first. Two tables: every cell of
the first is of the kind of its column. More: every row of the last but one is the row of the first
table's defaults, and what stands in those before it, row for row, is what the first table's
columns fill new rows with. -/
def AllShow : List Table → Prop
  | [_, first] => ∀ row ∈ first.cellRows,
      List.Forall₂ (fun c v => v.fits c.type = true) first.columns row
  | _ :: middle :: next :: older =>
      let first := (next :: older).getLast (List.cons_ne_nil next older)
      (∀ row ∈ middle.cellRows, row = first.blankRow) ∧
        ((next :: older).map cellRows).flatten
          = (List.range ((next :: older).map fun t => t.rows.length).sum).map
            fun i => first.broughtRow (first.refilledRow i)
  | _ => True

@[simp] theorem length_cellRows (t : Table) : t.cellRows.length = t.rows.length :=
  List.length_map ..

theorem append_eq_append_iff_of_length {α : Type} {xs ys us vs : List α}
    (h : xs.length = ys.length) : xs ++ us = ys ++ vs ↔ xs = ys ∧ us = vs :=
  ⟨fun heq => List.append_inj heq h, fun ⟨hxs, hus⟩ => hxs ▸ hus ▸ rfl⟩

theorem shownRows_eq_flatten_iff {first : Table} {tables : List Table}
    (hfirst : tables.getLast? = some first) (htyped : first.WellTyped)
    (howned : first.rows = first.cellRows.map Row.owned) :
    shownRows first tables = (tables.map cellRows).flatten ↔ AllShow tables := by
  match tables with
  | [] => cases hfirst
  | [c] => simp [shownRows, AllShow]
  | [c, d] =>
      obtain rfl : d = first := Option.some.inj hfirst
      have hself : d.cellRows.map d.broughtRow = d.cellRows.map id ↔
          ∀ row ∈ d.cellRows, d.broughtRow row = row := List.map_inj_left
      have hfits : ∀ row ∈ d.cellRows, (d.broughtRow row = row ↔
          List.Forall₂ (fun c v => v.fits c.type = true) d.columns row) := fun row hrow =>
        zipWith_brought_eq_self_iff (htyped.rows row (howned ▸ List.mem_map_of_mem hrow))
      have hright : ([c, d].map cellRows).flatten = c.cellRows ++ d.cellRows := by simp
      rw [AllShow, shownRows, behindRows, hright, List.append_right_inj]
      rw [List.map_id] at hself
      exact hself.trans (forall₂_congr hfits)
  | c :: d :: e :: rest =>
      have hlast : (e :: rest).getLast (List.cons_ne_nil e rest) = first := by
        simpa [List.getLast?_eq_some_getLast] using hfirst
      have hmiddle : List.replicate d.rows.length first.blankRow = d.cellRows ↔
          ∀ row ∈ d.cellRows, row = first.blankRow := by
        rw [eq_comm, List.eq_replicate_iff, length_cellRows]
        exact and_iff_right rfl
      have hleft : shownRows first (c :: d :: e :: rest)
          = c.cellRows ++ (List.replicate d.rows.length first.blankRow
            ++ (List.range ((e :: rest).map fun t => t.rows.length).sum).map
              fun i => first.broughtRow (first.refilledRow i)) := by
        rw [shownRows, behindRows, List.map_append, List.map_replicate, htyped.broughtRow_blankRow,
          List.map_map]
        rfl
      have hright : ((c :: d :: e :: rest).map cellRows).flatten
          = c.cellRows ++ (d.cellRows ++ ((e :: rest).map cellRows).flatten) := rfl
      rw [AllShow, hlast, hleft, hright, List.append_right_inj,
        append_eq_append_iff_of_length (by rw [List.length_replicate, length_cellRows]), hmiddle]
      exact and_congr_right fun _ => eq_comm

end Table

end OnePassSql

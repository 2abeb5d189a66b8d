import Mathlib.Data.List.Nodup
import OnePassSql.Proofs.Table.Union

/-!
Tables with the same distinct column names, united one after the other. The first columns of the
names are those of the last table, so a row that is copied again and again is read where the last
cells of its names go: the columns of the very first table, which from the second union on hold
nothing but defaults and counters.
-/

namespace OnePassSql

namespace Column

/-- The name and the type of the column. -/
def heading (c : Column) : String × ColumnType := (c.name, c.type)

theorem heading_eq_iff {c d : Column} : c.heading = d.heading ↔ c.name = d.name ∧ c.type = d.type :=
  Prod.mk.injEq .. ▸ Iff.rfl

@[simp] theorem fresh_fresh (c : Column) : c.fresh.fresh = c.fresh := rfl

@[simp] theorem fresh_default (c : Column) : c.fresh.default = c.default := rfl

@[simp] theorem heading_fresh (c : Column) : c.fresh.heading = c.heading := rfl

@[simp] theorem heading_advanceBy (n : Nat) (c : Column) :
    (c.advanceBy n).heading = c.heading := by
  simp [heading]

/-- What a cell may be can be brought to the type. -/
theorem MayHold.coerce_eq {c : Column} {v : Value} (h : c.MayHold v) :
    v.coerce c.type = .ok (v.brought c.type) := by
  rcases h with hfits | ⟨-, n, rfl⟩
  · exact Value.coerce_eq_brought (Value.coerce_of_fits hfits)
  · obtain ⟨w, hw⟩ := Value.integer_coerce n c.type
    exact Value.coerce_eq_brought hw

end Column

namespace Table

/-- The row with each value brought to the type of its column. -/
def broughtRow (t : Table) (row : List Value) : List Value :=
  List.zipWith (fun c v => v.brought c.type) t.columns row

/-- The row of the defaults. -/
def blankRow (t : Table) : List Value := t.columns.map Column.default

/-- What the `i`-th row is filled with that is created in fresh copies of the columns. -/
def refilledRow (t : Table) (i : Nat) : List Value :=
  t.columns.map fun c => (c.fresh.advanceBy i).fill

/-! ## Where the cells of a copied row go -/

variable {c : Table} (more : List Column)

/-- The first columns are found by their names if these are distinct. -/
theorem columnIndex?_of_names {t : Table} {names others : List String}
    (hnames : t.columns.map Column.name = names ++ others) (hdistinct : names.Nodup) {i : Nat}
    {name : String} (h : names[i]? = some name) : t.columnIndex? name = some i := by
  have hindex : t.columnIndex? name = (names ++ others).findIdx? (· == name) := by
    rw [← hnames, List.findIdx?_map]
    rfl
  obtain ⟨hi, rfl⟩ := List.getElem?_eq_some_iff.mp h
  rw [hindex, List.findIdx?_eq_some_iff_getElem]
  refine ⟨by simp; omega, by simp [List.getElem_append_left hi], fun j hj => ?_⟩
  have hjn : j < names.length := by omega
  have hne := List.nodup_iff_getElem?_ne_getElem?.mp hdistinct j i hj hi
  simpa [List.getElem_append_left hjn, List.getElem?_eq_getElem hi,
    List.getElem?_eq_getElem hjn] using hne

/-- A value goes into the column of its name, brought to its type. -/
theorem putsValue_append (hdistinct : (c.columns.map Column.name).Nodup) {i : Nat} {d e : Column}
    {v : Value} (hd : c.columns[i]? = some d) (he : e.heading = d.heading) (hv : e.MayHold v) :
    PutsValue ⟨c.columns ++ more, []⟩ (e.name, v) (i, v.brought d.type) := by
  obtain ⟨hname, htype⟩ := Column.heading_eq_iff.mp he
  have hindex := columnIndex?_of_names (t := ⟨c.columns ++ more, []⟩) (by rw [List.map_append])
    hdistinct (by rw [List.getElem?_map, hd]; rfl)
  refine ⟨hname ▸ hindex, rfl, d, ?_, htype ▸ hv.coerce_eq⟩
  rw [List.getElem?_append_left (List.getElem?_eq_some_iff.mp hd).1]
  exact hd

/-- Cells of columns with known headings all go somewhere among the first columns. -/
theorem exists_puts_append (hdistinct : (c.columns.map Column.name).Nodup) {columns : List Column}
    {vals : List Value} (hin : ∀ e ∈ columns, e.heading ∈ c.columns.map Column.heading)
    (h : List.Forall₂ Column.MayHold columns vals) :
    ∃ writes, List.Forall₂ (PutsValue ⟨c.columns ++ more, []⟩)
      ((columns.map Column.name).zip vals) writes ∧ ∀ w ∈ writes, w.1 < c.columns.length := by
  induction h with
  | nil => exact ⟨[], .nil, fun w hw => (nomatch hw)⟩
  | cons hfirst _ ih =>
      rw [List.forall_mem_cons] at hin
      obtain ⟨writes, hputs, hlt⟩ := ih hin.2
      obtain ⟨d, hd, heading⟩ := List.mem_map.mp hin.1
      obtain ⟨i, hi⟩ := List.mem_iff_getElem?.mp hd
      refine ⟨_ :: writes, .cons (putsValue_append more hdistinct hi heading.symm hfirst) hputs,
        List.forall_mem_cons.mpr ⟨(List.getElem?_eq_some_iff.mp hi).1, hlt⟩⟩

/-- Cells of columns with the same headings go into their places. -/
theorem puts_zipIdx (hdistinct : (c.columns.map Column.name).Nodup) {columns : List Column}
    {vals : List Value} (hheadings : columns.map Column.heading = c.columns.map Column.heading)
    (h : List.Forall₂ Column.MayHold columns vals) :
    List.Forall₂ (PutsValue ⟨c.columns ++ more, []⟩) ((columns.map Column.name).zip vals)
      ((c.broughtRow vals).zipIdx.map Prod.swap) := by
  have hlength : columns.length = c.columns.length := by
    simpa using congrArg List.length hheadings
  refine Result.forall₂_of_getElem? ?_ fun i entry cell hentry hcell => ?_
  · simp [broughtRow, ← h.length_eq, hlength]
  · obtain ⟨name, v⟩ := entry
    obtain ⟨hname, hv⟩ := List.getElem?_zip_eq_some.mp hentry
    rw [List.getElem?_map, Option.map_eq_some_iff] at hname
    obtain ⟨e, he, rfl⟩ := hname
    obtain ⟨v', hv', hholds⟩ := Result.exists_right_of_forall₂ h he
    cases hv.symm.trans hv'
    have hi : i < c.columns.length := hlength ▸ (List.getElem?_eq_some_iff.mp he).1
    have hheading : e.heading = c.columns[i].heading := by
      have hget := congrArg (fun l => l[i]?) hheadings
      simpa [he, List.getElem?_eq_getElem hi] using hget
    have hcell' : cell = (i, v.brought c.columns[i].type) := by
      simp only [broughtRow, List.getElem?_map, List.getElem?_zipIdx, List.getElem?_zipWith,
        List.getElem?_eq_getElem hi, hv] at hcell
      simpa [eq_comm] using hcell
    rw [hcell']
    exact putsValue_append more hdistinct (List.getElem?_eq_getElem hi) hheading hholds

/-- Writes to the first cells, one after the other. -/
theorem writeCells_zipIdx (vals before cells : List Value) (h : vals.length ≤ cells.length) :
    writeCells (before ++ cells) ((vals.zipIdx before.length).map Prod.swap)
      = before ++ vals ++ cells.drop vals.length := by
  induction vals generalizing before cells with
  | nil => simp
  | cons v vals ih =>
      cases cells with
      | nil => simp at h
      | cons cell cells =>
          have hset : setCell (before ++ cell :: cells) before.length v
              = (before ++ [v]) ++ cells := by
            rw [setCell_of_lt (by simp)]
            simp
          have hrest := ih (before ++ [v]) cells (Nat.le_of_succ_le_succ h)
          rw [List.length_append, List.length_singleton] at hrest
          simpa [writeCells_cons, hset] using hrest

/-- Writes to the first cells leave the others. -/
theorem drop_writeCells {cells : List Value} {writes : List (Nat × Value)} {n : Nat}
    (hn : n ≤ cells.length) (h : ∀ w ∈ writes, w.1 < n) :
    (writeCells cells writes).drop n = cells.drop n := by
  refine List.ext_getElem? fun i => ?_
  rw [List.getElem?_drop, List.getElem?_drop]
  refine getElem?_writeCells_of_forall_ne (fun w hw => ?_) fun w hw => ?_
  · have := h w hw
    omega
  · have := h w hw
    omega

/-- A row is copied so that its cells behind `front` come first. Those before them are overwritten.
-/
theorem exists_copy {t : Table} {front back : List Column} {row : List Value}
    (hdistinct : (c.columns.map Column.name).Nodup) (hcolumns : t.columns = front ++ back)
    (hfront : ∀ e ∈ front, e.heading ∈ c.columns.map Column.heading)
    (hback : back.map Column.heading = c.columns.map Column.heading)
    (hrow : List.Forall₂ Column.MayHold t.columns row) :
    ∃ writes, List.Forall₂ (PutsValue ⟨c.columns ++ more, []⟩)
        ((t.columns.map Column.name).zip row) writes ∧
      ∀ cells : List Value, c.columns.length ≤ cells.length → writeCells cells writes
        = c.broughtRow (row.drop front.length) ++ cells.drop c.columns.length := by
  rw [hcolumns] at hrow
  have hrowFront := List.forall₂_take_append row front back hrow.flip
  have hrowBack := List.forall₂_drop_append row front back hrow.flip
  obtain ⟨writes, hputs, hlt⟩ := exists_puts_append more hdistinct hfront hrowFront.flip
  have hputsBack := puts_zipIdx more hdistinct hback hrowBack.flip
  have hbackLength : back.length = c.columns.length := by
    simpa using congrArg List.length hback
  have hbrought : (c.broughtRow (row.drop front.length)).length = c.columns.length := by
    rw [broughtRow, List.length_zipWith, hrowBack.length_eq, hbackLength, Nat.min_self]
  refine ⟨writes ++ (c.broughtRow (row.drop front.length)).zipIdx.map Prod.swap, ?_,
    fun cells hcells => ?_⟩
  · have hzip : (t.columns.map Column.name).zip row
        = (front.map Column.name).zip (row.take front.length) ++
          (back.map Column.name).zip (row.drop front.length) := by
      rw [← List.zip_append (by rw [List.length_map, hrowFront.length_eq]), ← List.map_append,
        ← hcolumns, List.take_append_drop]
    rw [hzip]
    exact List.rel_append hputs hputsBack
  · have hwritten : (writeCells cells writes).length = cells.length :=
      length_writeCells fun w hw => Nat.lt_of_lt_of_le (hlt w hw) hcells
    have hover := writeCells_zipIdx (c.broughtRow (row.drop front.length)) []
      (writeCells cells writes) (by rw [hbrought, hwritten]; exact hcells)
    rw [List.nil_append, List.nil_append, List.length_nil, hbrought, drop_writeCells hcells hlt]
      at hover
    rw [writeCells_append, hover]

/-! ## Uniting again and again -/

/-- What the accumulated table `t` holds when `first` was the first of the united tables: under the
first columns of the names it shows `views`, and under the columns of `first`, which come last, it
holds `tails`. -/
structure Accumulates (first t : Table) (views tails : List (List Value)) : Prop where
  leading : ∃ more, t.columns.map Column.heading = first.columns.map Column.heading ++ more
  parts : ∃ (front back : List Column) (rows : List (List Value)), t.columns = front ++ back ∧
    back.map Column.fresh = first.columns.map Column.fresh ∧
    (∀ e ∈ front, e.heading ∈ first.columns.map Column.heading) ∧
    t.rows = rows.map Row.owned ∧
    rows.map (List.take first.columns.length) = views ∧ rows.map (List.drop front.length) = tails
  typed : t.WellTyped

theorem WellTyped.length_row {t : Table} (h : t.WellTyped) {rows : List (List Value)}
    (hrows : t.rows = rows.map Row.owned) {row : List Value} (hrow : row ∈ rows) :
    t.columns.length = row.length :=
  (h.rows row (hrows ▸ List.mem_map_of_mem hrow)).length_eq

theorem accumulates_self {t : Table} {rows : List (List Value)}
    (hrows : t.rows = rows.map Row.owned) (htyped : t.WellTyped) :
    Accumulates t t rows rows := by
  refine ⟨⟨[], by simp⟩, ⟨[], t.columns, rows, rfl, rfl, fun e he => (nomatch he), hrows, ?_, ?_⟩,
    htyped⟩
  · rw [List.map_congr_left fun row hrow => List.take_of_length_le
      (Nat.le_of_eq (htyped.length_row hrows hrow).symm), List.map_id']
  · rw [List.length_nil, List.map_congr_left fun row _ => List.drop_zero, List.map_id']

section Lists

variable {α β : Type}

theorem map_mapIdx_eq_map {γ : Type} {g : β → γ} {f : Nat → α → β} {k : α → γ} {l : List α}
    (h : ∀ i, ∀ a ∈ l, g (f i a) = k a) : (l.mapIdx f).map g = l.map k := by
  refine List.ext_getElem? fun i => ?_
  cases ha : l[i]? with
  | none => simp [ha]
  | some a => simp [ha, h i a (List.mem_of_getElem? ha)]

theorem map_mapIdx_eq_range {γ : Type} {g : β → γ} {f : Nat → α → β} {k : Nat → γ} {l : List α}
    (h : ∀ i, ∀ a ∈ l, g (f i a) = k i) : (l.mapIdx f).map g = (List.range l.length).map k := by
  refine List.ext_getElem? fun i => ?_
  cases ha : l[i]? with
  | none =>
      have hi : l.length ≤ i := List.getElem?_eq_none_iff.mp ha
      simp [hi]
  | some a =>
      obtain ⟨hi, rfl⟩ := List.getElem?_eq_some_iff.mp ha
      simp [hi, h i _ (List.getElem_mem hi)]

variable {rows olds : List (List α)} {blank : List α} {brought : List α → List α}
  {refilled : Nat → List α} {n m : Nat}

/-- The first cells of united rows. -/
theorem map_take_united (hrows : ∀ row ∈ rows, row.length = n)
    (holds : ∀ row ∈ olds, (brought row).length = n) :
    (rows.map (fun row => row ++ blank)
      ++ olds.mapIdx fun i row => brought row ++ refilled i).map (List.take n)
      = rows ++ olds.map brought := by
  have hown : rows.map (List.take n ∘ fun row => row ++ blank) = rows.map id :=
    List.map_congr_left fun row hrow => List.take_left' (hrows row hrow)
  have hcopied : (olds.mapIdx fun i row => brought row ++ refilled i).map (List.take n)
      = olds.map brought :=
    map_mapIdx_eq_map fun i row hrow => List.take_left' (holds row hrow)
  rw [List.map_append, List.map_map, hown, hcopied, List.map_id]

/-- The last cells of united rows. -/
theorem map_drop_united (hrows : ∀ row ∈ rows, row.length = n)
    (holds : ∀ row ∈ olds, (brought row).length = n) :
    (rows.map (fun row => row ++ blank)
      ++ olds.mapIdx fun i row => brought row ++ refilled i).map (List.drop (n + m))
      = List.replicate rows.length (blank.drop m)
        ++ (List.range olds.length).map fun i => (refilled i).drop m := by
  have hdrop : ∀ {front back : List α}, front.length = n →
      (front ++ back).drop (n + m) = back.drop m := by
    intro front back hlength
    rw [← List.drop_drop, List.drop_left' hlength]
  have hown : rows.map (List.drop (n + m) ∘ fun row => row ++ blank)
      = rows.map fun _ => blank.drop m :=
    List.map_congr_left fun row hrow => hdrop (hrows row hrow)
  have hcopied : (olds.mapIdx fun i row => brought row ++ refilled i).map (List.drop (n + m))
      = (List.range olds.length).map fun i => (refilled i).drop m :=
    map_mapIdx_eq_range fun i row hrow => hdrop (holds row hrow)
  rw [List.map_append, List.map_map, hown, hcopied, List.map_const']

end Lists

theorem broughtRow_congr {t u : Table}
    (h : t.columns.map Column.heading = u.columns.map Column.heading) (row : List Value) :
    t.broughtRow row = u.broughtRow row := by
  have htypes : t.columns.map Column.type = u.columns.map Column.type := by
    simpa [Function.comp_def, Column.heading] using congrArg (List.map Prod.snd) h
  have hmap : ∀ w : Table, w.broughtRow row
      = List.zipWith (fun type (v : Value) => v.brought type) (w.columns.map Column.type) row := by
    intro w
    rw [broughtRow, List.zipWith_map_left]
  rw [hmap t, hmap u, htypes]

/-- The union of a table with an accumulated one that has `front` before the columns of the first.
-/
theorem union_like {ρ : Type} [Record ρ] {t : Table} {front back : List Column}
    {rows olds : List (List Value)} (hcolumns : t.columns = front ++ back)
    (hfront : ∀ e ∈ front, e.heading ∈ c.columns.map Column.heading)
    (hback : back.map Column.heading = c.columns.map Column.heading)
    (hdistinct : (c.columns.map Column.name).Nodup) (hrows : c.rows = rows.map Row.owned)
    (holds : t.rows = olds.map Row.owned) (htyped : t.WellTyped) (records : Records ρ) :
    Edit.union t ⟨c, records⟩ = .ok ⟨⟩
      ⟨⟨(c.columns ++ t.columns.map Column.fresh).map (Column.advanceBy olds.length),
        (rows.map (fun row => row ++ t.blankRow) ++ olds.mapIdx fun i row =>
          c.broughtRow (row.drop front.length) ++ t.refilledRow i).map Row.owned⟩, records⟩ := by
  have hwidth : ∀ row ∈ olds, t.columns.length = row.length ∧ t.columns ≠ [] := fun row hrow =>
    ⟨htyped.length_row holds hrow,
      htyped.columns_ne_nil row (holds ▸ List.mem_map_of_mem hrow)⟩
  obtain ⟨writes, hwrites⟩ := Result.exists_forall₂ fun row (hrow : row ∈ olds) =>
    exists_copy (t.columns.map Column.fresh) hdistinct hcolumns hfront hback
      (htyped.rows row (holds ▸ List.mem_map_of_mem hrow))
  -- every copied row in its final form: its last cells, brought to their types, over a fresh row
  have hcopied : (writes.mapIdx fun i cells => Row.owned (writeCells
      ((c.columns ++ t.columns.map Column.fresh).map fun e => (e.advanceBy i).fill) cells))
      = (olds.mapIdx fun i row => c.broughtRow (row.drop front.length) ++ t.refilledRow i).map
        Row.owned := by
    refine List.ext_getElem? fun i => ?_
    cases hrow : olds[i]? with
    | none =>
        have hnone : writes[i]? = none := by
          rw [List.getElem?_eq_none_iff, ← hwrites.length_eq, ← List.getElem?_eq_none_iff, hrow]
        simp [hrow, hnone]
    | some row =>
        obtain ⟨cells, hcells, -, hover⟩ := Result.exists_right_of_forall₂ hwrites hrow
        have hfinal := hover
          ((c.columns ++ t.columns.map Column.fresh).map fun e => (e.advanceBy i).fill) (by simp)
        simp only [List.getElem?_mapIdx, List.getElem?_map, hrow, hcells, Option.map_some, hfinal]
        simp [refilledRow, Function.comp_def]
  rw [Edit.union_apply hrows holds hwidth (hwrites.imp fun _ _ hw => hw.1) records, hcopied,
    ← List.map_append (f := Row.owned)]
  rfl

section Parts

variable {first t : Table} {front back : List Column}

/-- Under the columns of the first table the row of the defaults is that of the first table. -/
theorem drop_blankRow (hcolumns : t.columns = front ++ back)
    (hback : back.map Column.fresh = first.columns.map Column.fresh) :
    t.blankRow.drop front.length = first.blankRow := by
  simpa [blankRow, hcolumns, Function.comp_def] using congrArg (List.map Column.default) hback

theorem drop_refilledRow (hcolumns : t.columns = front ++ back)
    (hback : back.map Column.fresh = first.columns.map Column.fresh) (i : Nat) :
    (t.refilledRow i).drop front.length = first.refilledRow i := by
  simpa [refilledRow, hcolumns, Function.comp_def]
    using congrArg (List.map fun e => (e.advanceBy i).fill) hback

theorem length_broughtRow_drop (hcolumns : t.columns = front ++ back)
    (hback : back.map Column.heading = c.columns.map Column.heading) {row : List Value}
    (hrow : t.columns.length = row.length) :
    (c.broughtRow (row.drop front.length)).length = c.columns.length := by
  have hlength := congrArg List.length hback
  simp only [hcolumns, List.length_append, List.length_map] at hrow hlength
  simp only [broughtRow, List.length_zipWith, List.length_drop]
  omega

end Parts

/-- Another table with the same headings is united with what was accumulated. Its own rows show, and
behind them what was under the columns of the first table. -/
theorem Accumulates.union {ρ : Type} [Record ρ] {first t : Table}
    {views tails : List (List Value)} (h : Accumulates first t views tails)
    (hheadings : c.columns.map Column.heading = first.columns.map Column.heading)
    (hdistinct : (c.columns.map Column.name).Nodup) {rows : List (List Value)}
    (hrows : c.rows = rows.map Row.owned) (htyped : c.WellTyped) (records : Records ρ) :
    ∃ t', Edit.union t ⟨c, records⟩ = .ok ⟨⟩ ⟨t', records⟩ ∧
      Accumulates first t' (rows ++ tails.map first.broughtRow)
        (List.replicate rows.length first.blankRow
          ++ (List.range views.length).map first.refilledRow) := by
  obtain ⟨front, back, olds, hcolumns, hback, hfront, holds, rfl, rfl⟩ := h.parts
  have hbackHeading : back.map Column.heading = c.columns.map Column.heading := by
    rw [hheadings]
    simpa [Function.comp_def] using congrArg (List.map Column.heading) hback
  have hunion := union_like hcolumns (hheadings ▸ hfront) hbackHeading hdistinct hrows holds
    h.typed records
  have hlength : first.columns.length = c.columns.length := by
    simpa using congrArg List.length hheadings.symm
  have hown : ∀ row ∈ rows, row.length = c.columns.length := fun row hrow =>
    (htyped.length_row hrows hrow).symm
  have hbrought : ∀ row ∈ olds,
      (c.broughtRow (row.drop front.length)).length = c.columns.length := fun row hrow =>
    length_broughtRow_drop hcolumns hbackHeading (h.typed.length_row holds hrow)
  refine ⟨_, hunion, ?_, ?_, (Edit.keepsTypes_union h.typed).ok hunion htyped⟩
  · exact ⟨t.columns.map Column.heading, by simp [Function.comp_def, hheadings]⟩
  · refine ⟨(c.columns ++ front.map Column.fresh).map (Column.advanceBy olds.length),
      (back.map Column.fresh).map (Column.advanceBy olds.length), _, ?_, ?_, ?_, rfl, ?_, ?_⟩
    · simp [hcolumns]
    · simpa [Function.comp_def] using hback
    · intro e he
      obtain ⟨d, hd, rfl⟩ := List.mem_map.mp he
      rw [Column.heading_advanceBy]
      rcases List.mem_append.mp hd with hown | hold
      · exact hheadings ▸ List.mem_map_of_mem hown
      · obtain ⟨d', hd', rfl⟩ := List.mem_map.mp hold
        exact hfront d' hd'
    · rw [hlength, map_take_united hown hbrought, List.map_map]
      exact congrArg (rows ++ ·) (List.map_congr_left fun row _ => broughtRow_congr hheadings _)
    · rw [List.length_map, List.length_append, List.length_map, map_drop_united hown hbrought,
        drop_blankRow hcolumns hback, List.length_map]
      exact congrArg _ (List.map_congr_left fun i _ => drop_refilledRow hcolumns hback i)

end Table

end OnePassSql

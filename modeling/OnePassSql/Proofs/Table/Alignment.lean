import Mathlib.Data.List.ChainOfFn
import OnePassSql.Proofs.Result
import OnePassSql.Table.Grid

/-!
The grid as lines of text. A column is two characters wider than its longest text, so every text has
a blank before it and one or more behind it; the lines are as long as the rules and have their bars
where those have a sign.
-/

namespace OnePassSql

/-! ## Texts in a width -/

theorem le_foldl_max (l : List Nat) (start : Nat) :
    start ≤ l.foldl max start ∧ ∀ x ∈ l, x ≤ l.foldl max start := by
  induction l generalizing start with
  | nil => exact ⟨Nat.le_refl _, fun x hx => (nomatch hx)⟩
  | cons y rest ih =>
      obtain ⟨hstart, hrest⟩ := ih (max start y)
      refine ⟨Nat.le_trans (Nat.le_max_left _ _) hstart, List.forall_mem_cons.mpr ⟨?_, hrest⟩⟩
      exact Nat.le_trans (Nat.le_max_right _ _) hstart

namespace Table

/-- The width has room for the text and a blank on either side. -/
def Holds (text : String) (width : Nat) : Prop := text.length + 2 ≤ width

section Widths

variable {ρ : Type} [Record ρ]

/-- A column has room for its name and for every cell. -/
theorem holds_gridWidth (records : Records ρ) (t : Table) (column : Nat) (name : String) :
    Holds name (t.gridWidth records column name) ∧
      ∀ row < t.rows.length, Holds (t.cellText records row column)
        (t.gridWidth records column name) := by
  obtain ⟨hname, hcells⟩ := le_foldl_max
    ((List.range t.rows.length).map fun row => (t.cellText records row column).length) name.length
  refine ⟨Nat.add_le_add_right hname 2, fun row hrow => Nat.add_le_add_right (hcells _ ?_) 2⟩
  exact List.mem_map.mpr ⟨row, List.mem_range.mpr hrow, rfl⟩

theorem getElem?_gridWidths {records : Records ρ} {t : Table} {i width : Nat}
    (h : (t.gridWidths records)[i]? = some width) :
    ∃ c, t.columns[i]? = some c ∧ width = t.gridWidth records i c.name := by
  rw [gridWidths, List.getElem?_map, List.getElem?_zipIdx] at h
  obtain ⟨⟨c, column⟩, hc, rfl⟩ := Option.map_eq_some_iff.mp h
  obtain ⟨d, hd, heq⟩ := Option.map_eq_some_iff.mp hc
  cases heq
  exact ⟨c, hd, by rw [Nat.zero_add]⟩

theorem holds_names (records : Records ρ) (t : Table) :
    List.Forall₂ Holds (t.columns.map Column.name) (t.gridWidths records) := by
  refine Result.forall₂_of_getElem? (by simp [gridWidths]) fun i name width hname hwidth => ?_
  obtain ⟨c, hc, rfl⟩ := getElem?_gridWidths hwidth
  rw [List.getElem?_map, hc] at hname
  cases hname
  exact (t.holds_gridWidth records i c.name).1

theorem holds_row (records : Records ρ) (t : Table) {row : Nat} (hrow : row < t.rows.length) :
    List.Forall₂ Holds ((List.range t.columns.length).map fun column =>
      t.cellText records row column) (t.gridWidths records) := by
  refine Result.forall₂_of_getElem? (by simp [gridWidths]) fun i text width htext hwidth => ?_
  obtain ⟨c, hc, rfl⟩ := getElem?_gridWidths hwidth
  rw [List.getElem?_map, List.getElem?_range (List.getElem?_eq_some_iff.mp hc).1] at htext
  cases htext
  exact (t.holds_gridWidth records i c.name).2 row hrow

end Widths

/-! ## Bars -/

/-- The offsets of the bars of columns with the given widths. -/
def barsFrom (start : Nat) : List Nat → List Nat
  | [] => [start]
  | width :: rest => start :: barsFrom (start + width + 1) rest

/-- The characters of a rule. -/
def ruleChars (widths : List Nat) : List Char :=
  widths.flatMap (fun width => '+' :: List.replicate width '-') ++ ['+']

/-- The characters between two bars. -/
def cellChars (text : String) (width : Nat) : List Char :=
  ' ' :: (text.toList ++ List.replicate (width - (text.length + 1)) ' ')

/-- The characters of a line. -/
def lineChars (texts : List String) (widths : List Nat) : List Char :=
  (texts.zip widths).flatMap (fun (text, width) => '|' :: cellChars text width) ++ ['|']

theorem gridRule_toList (widths : List Nat) :
    (gridRule widths).toList = ruleChars widths ++ ['\n'] := by
  simp [gridRule, ruleChars, List.flatMap_map]

theorem gridLine_toList (texts : List String) (widths : List Nat) :
    (gridLine widths texts).toList = lineChars texts widths ++ ['\n'] := by
  simp [gridLine, lineChars, cellChars, List.flatMap_map]

/-- A line has a bar at each of the offsets, the first and the last at its ends. Between two bars
that follow each other are a blank, the text in full and one or more blanks. -/
structure Barred (bars : List Nat) (texts : List String) (chars : List Char) : Prop where
  count : bars.length = texts.length + 1
  bar : ∀ offset ∈ bars, chars[offset]? = some '|'
  first : bars.head? = some 0
  last : ∀ offset, bars.getLast? = some offset → chars.length = offset + 1
  between (i left right : Nat) (text : String) : bars[i]? = some left →
    bars[i + 1]? = some right → texts[i]? = some text → ∃ blanks, 0 < blanks ∧
      (chars.take right).drop (left + 1) = ' ' :: (text.toList ++ List.replicate blanks ' ')

section Lines

variable {text : String} {texts : List String} {width : Nat} {widths : List Nat}

theorem length_cellChars (h : Holds text width) : (cellChars text width).length = width := by
  unfold Holds at h
  simp only [cellChars, List.length_cons, List.length_append, String.length_toList,
    List.length_replicate]
  omega

theorem lineChars_cons (text : String) (texts : List String) (width : Nat) (widths : List Nat) :
    lineChars (text :: texts) (width :: widths)
      = '|' :: cellChars text width ++ lineChars texts widths := by
  simp [lineChars]

/-- The rule has its signs at the offsets of the bars. -/
theorem idxsOf_ruleChars (widths : List Nat) (start : Nat) :
    (ruleChars widths).idxsOf '+' start = barsFrom start widths := by
  induction widths generalizing start with
  | nil => rfl
  | cons width rest ih =>
      have hnone : ∀ start, (List.replicate width '-').idxsOf '+' start = [] := fun start =>
        List.idxsOf_eq_nil_iff.mpr fun c hc => by
          rw [List.eq_of_mem_replicate hc]
          rfl
      have hsplit : ruleChars (width :: rest)
          = '+' :: (List.replicate width '-' ++ ruleChars rest) := by
        simp [ruleChars]
      rw [hsplit, List.idxsOf_cons, if_pos (beq_self_eq_true '+'), List.idxsOf_append, hnone,
        List.nil_append, List.length_replicate, ih, barsFrom, Nat.add_right_comm]

theorem length_barsFrom (start : Nat) (widths : List Nat) :
    (barsFrom start widths).length = widths.length + 1 := by
  induction widths generalizing start with
  | nil => rfl
  | cons width rest ih => rw [barsFrom, List.length_cons, ih, List.length_cons]

theorem head?_barsFrom (start : Nat) (widths : List Nat) :
    (barsFrom start widths).head? = some start := by
  cases widths <;> rfl

/-- A line behind other characters, with its first cell taken to them. -/
theorem append_lineChars (before : List Char) (text : String) (texts : List String) (width : Nat)
    (widths : List Nat) : before ++ lineChars (text :: texts) (width :: widths)
      = (before ++ '|' :: cellChars text width) ++ lineChars texts widths := by
  rw [lineChars_cons, List.append_assoc]

theorem length_append_cell (h : Holds text width) (before : List Char) :
    (before ++ '|' :: cellChars text width).length = before.length + width + 1 := by
  rw [List.length_append, List.length_cons, length_cellChars h, Nat.add_assoc]

/-- The bars of a line stand at the offsets, also behind other characters. -/
theorem bar_lineChars (h : List.Forall₂ Holds texts widths) (before : List Char) :
    ∀ offset ∈ barsFrom before.length widths,
      (before ++ lineChars texts widths)[offset]? = some '|' := by
  induction h generalizing before with
  | nil =>
      rintro offset hoffset
      cases List.mem_singleton.mp hoffset
      exact List.getElem?_concat_length
  | @cons text width texts widths hfirst _ ih =>
      intro offset hoffset
      rcases List.mem_cons.mp hoffset with rfl | hrest
      · rw [lineChars_cons, List.getElem?_append_right (Nat.le_refl _), Nat.sub_self]
        rfl
      · rw [append_lineChars]
        rw [← length_append_cell hfirst] at hrest
        exact ih _ offset hrest

/-- The last bar ends the line. -/
theorem length_lineChars (h : List.Forall₂ Holds texts widths) (before : List Char) :
    ∀ offset, (barsFrom before.length widths).getLast? = some offset →
      (before ++ lineChars texts widths).length = offset + 1 := by
  induction h generalizing before with
  | nil =>
      rintro offset ⟨⟩
      rw [List.length_append]
      rfl
  | @cons text width texts widths hfirst _ ih =>
      intro offset hoffset
      rw [append_lineChars]
      refine ih _ offset ?_
      rw [length_append_cell hfirst, ← hoffset, barsFrom]
      cases widths <;> rfl

/-- A rule is as long as the lines with its bars. -/
theorem length_ruleChars (widths : List Nat) (start : Nat) :
    ∀ offset, (barsFrom start widths).getLast? = some offset →
      start + (ruleChars widths).length = offset + 1 := by
  induction widths generalizing start with
  | nil =>
      rintro offset ⟨⟩
      rfl
  | cons width rest ih =>
      intro offset hoffset
      have hrest := ih (start + width + 1) offset (by rw [← hoffset, barsFrom]; cases rest <;> rfl)
      simp only [ruleChars, List.flatMap_cons, List.length_append, List.length_cons,
        List.length_replicate] at hrest ⊢
      omega

/-- What stands between two bars of a line. -/
theorem between_lineChars (h : List.Forall₂ Holds texts widths) (before : List Char) :
    ∀ (i left right : Nat) (text : String), (barsFrom before.length widths)[i]? = some left →
      (barsFrom before.length widths)[i + 1]? = some right → texts[i]? = some text →
      ∃ blanks, 0 < blanks ∧ ((before ++ lineChars texts widths).take right).drop (left + 1)
        = ' ' :: (text.toList ++ List.replicate blanks ' ') := by
  induction h generalizing before with
  | nil => exact fun i left right text _ _ htext => (nomatch htext)
  | @cons first width texts widths hfirst _ ih =>
      intro i left right text hleft hright htext
      rw [append_lineChars]
      have hlength := length_append_cell hfirst before
      cases i with
      | zero =>
          cases hleft
          cases htext
          have hnext : right = (before ++ '|' :: cellChars first width).length := by
            have hhead := head?_barsFrom (before.length + width + 1) widths
            rw [hlength]
            rw [barsFrom, List.getElem?_cons_succ, ← List.head?_eq_getElem?, hhead] at hright
            exact (Option.some.inj hright).symm
          refine ⟨width - (first.length + 1), ?_, ?_⟩
          · unfold Holds at hfirst
            omega
          · rw [hnext, List.take_left, ← List.singleton_append, ← List.append_assoc]
            exact List.drop_left' (by simp)
      | succ i =>
          rw [barsFrom, List.getElem?_cons_succ, ← hlength] at hleft hright
          exact ih _ i left right text hleft hright htext

theorem barred_lineChars (h : List.Forall₂ Holds texts widths) :
    Barred (barsFrom 0 widths) texts (lineChars texts widths) where
  count := by rw [length_barsFrom, h.length_eq]
  bar := bar_lineChars h []
  first := head?_barsFrom 0 widths
  last := length_lineChars h []
  between := between_lineChars h []

/-- A line with the bars of a rule is as long as the rule. -/
theorem Barred.length_eq {line : List Char} (h : Barred (barsFrom 0 widths) texts line) :
    line.length = (ruleChars widths).length := by
  cases hlast : (barsFrom 0 widths).getLast? with
  | none =>
      have hnil := congrArg List.length (List.getLast?_eq_none_iff.mp hlast)
      rw [length_barsFrom] at hnil
      cases hnil
  | some offset => rw [h.last offset hlast, ← length_ruleChars widths 0 offset hlast, Nat.zero_add]

end Lines

/-! ## The lines of the grid -/

/-- Lines without line breaks are found again in the text that has a line break behind each. -/
theorem splitOn_lines {lines : List (List Char)} (h : ∀ line ∈ lines, '\n' ∉ line) :
    (lines.flatMap fun line => line ++ ['\n']).splitOn '\n' = lines ++ [[]] := by
  have hjoined : (lines.flatMap fun line => line ++ ['\n'])
      = ['\n'].intercalate (lines ++ [[]]) := by
    clear h
    induction lines with
    | nil => rfl
    | cons line rest ih =>
        rw [List.flatMap_cons, ih, List.cons_append, List.intercalate_cons_of_ne_nil (by simp)]
  rw [hjoined]
  refine List.splitOn_intercalate '\n' (fun line hline => ?_) (by simp)
  rcases List.mem_append.mp hline with hown | hlast
  · exact h line hown
  · rw [List.mem_singleton.mp hlast]
    exact List.not_mem_nil

theorem not_mem_ruleChars (widths : List Nat) : '\n' ∉ ruleChars widths := by
  simp [ruleChars, List.mem_replicate]

theorem not_mem_lineChars {texts : List String} (h : ∀ text ∈ texts, '\n' ∉ text.toList)
    (widths : List Nat) : '\n' ∉ lineChars texts widths := by
  intro hmem
  rcases List.mem_append.mp hmem with hcells | hbar
  · obtain ⟨⟨text, width⟩, hzip, hcell⟩ := List.mem_flatMap.mp hcells
    have htext := h text (List.of_mem_zip hzip).1
    simp [cellChars, List.mem_replicate, htext] at hcell
  · simp at hbar

section Grid

variable {ρ : Type} [Record ρ]

/-- The texts of a row's cells. -/
def rowTexts (records : Records ρ) (t : Table) (row : Nat) : List String :=
  (List.range t.columns.length).map fun column => t.cellText records row column

/-- The lines of the grid. -/
def gridLines (records : Records ρ) (t : Table) : List (List Char) :=
  let widths := t.gridWidths records
  let rule := ruleChars widths
  rule :: lineChars (t.columns.map Column.name) widths :: rule ::
    ((List.range t.rows.length).map fun row => lineChars (t.rowTexts records row) widths) ++ [rule]

theorem grid_toList (records : Records ρ) (t : Table) : (t.grid records).toList
    = (t.gridLines records).flatMap fun line => line ++ ['\n'] := by
  simp [grid, gridLines, gridRow, rowTexts, gridRule_toList, gridLine_toList, List.flatMap_map]

/-- The grid of a table without line breaks in its names and cells has a line for each row and four
more: three rules and the names. All are of one length, and the names and every row have bars just
where the rules have their signs, with the full texts between them. -/
theorem grid_aligned (records : Records ρ) (t : Table)
    (hnames : ∀ c ∈ t.columns, '\n' ∉ c.name.toList)
    (hcells : ∀ row < t.rows.length, ∀ column < t.columns.length,
      '\n' ∉ (t.cellText records row column).toList) :
    ∃ (rule heading : List Char) (body : List (List Char)),
      (t.grid records).toList.splitOn '\n' = (rule :: heading :: rule :: body ++ [rule]) ++ [[]] ∧
      (rule :: heading :: rule :: body ++ [rule]).length = t.rows.length + 4 ∧
      (∀ line ∈ heading :: body, line.length = rule.length) ∧
      Barred (rule.idxsOf '+') (t.columns.map Column.name) heading ∧
      (∀ (row : Nat) (line : List Char), body[row]? = some line →
        Barred (rule.idxsOf '+') (t.rowTexts records row) line) ∧
      ∀ row column, t.cell records row column = .null → t.cellText records row column = "NULL" := by
  have hrows : ∀ row < t.rows.length, ∀ text ∈ t.rowTexts records row, '\n' ∉ text.toList := by
    intro row hrow text htext
    obtain ⟨column, hcolumn, rfl⟩ := List.mem_map.mp htext
    exact hcells row hrow column (List.mem_range.mp hcolumn)
  have hlines : ∀ line ∈ t.gridLines records, '\n' ∉ line := by
    simp only [gridLines, List.forall_mem_append, List.forall_mem_cons, List.forall_mem_map]
    have hrule := not_mem_ruleChars (t.gridWidths records)
    exact ⟨⟨hrule, not_mem_lineChars (List.forall_mem_map.mpr hnames) _, hrule,
      fun row hrow => not_mem_lineChars (hrows row (List.mem_range.mp hrow)) _⟩, hrule,
      List.forall_mem_nil _⟩
  have hheading := barred_lineChars (t.holds_names records)
  have hrow : ∀ row < t.rows.length, Barred (barsFrom 0 (t.gridWidths records))
      (t.rowTexts records row) (lineChars (t.rowTexts records row) (t.gridWidths records)) :=
    fun row hrow => barred_lineChars (t.holds_row records hrow)
  refine ⟨_, _, _, (t.grid_toList records ▸ splitOn_lines hlines), by simp, ?_, ?_, ?_, ?_⟩
  · rw [List.forall_mem_cons, List.forall_mem_map]
    exact ⟨hheading.length_eq, fun row hmem => (hrow row (List.mem_range.mp hmem)).length_eq⟩
  · rw [idxsOf_ruleChars]
    exact hheading
  · intro row line hline
    rw [List.getElem?_map] at hline
    obtain ⟨row', hmem, rfl⟩ := Option.map_eq_some_iff.mp hline
    obtain ⟨hlt, rfl⟩ := List.getElem?_eq_some_iff.mp hmem
    rw [List.length_range] at hlt
    rw [List.getElem_range, idxsOf_ruleChars]
    exact hrow row hlt
  · intro row column hnull
    rw [cellText, hnull]
    rfl

/-- A name beyond ASCII, a text with a bar of its own and a null. -/
theorem grid_aligned_prices :
    let records : Records CellRecord := ⟨[]⟩
    let prices : Table := ⟨[.plain "café" .text, .plain "n" .integer],
      [.owned [.text "a|b", .integer 10], .owned [.text "", .null]]⟩
    (∀ c ∈ prices.columns, '\n' ∉ c.name.toList) ∧
    (∀ row < 2, ∀ column < 2, '\n' ∉ (prices.cellText records row column).toList) ∧
    prices.grid records = "+------+------+\n| café | n    |\n+------+------+\n" ++
      "| a|b  | 10   |\n|      | NULL |\n+------+------+\n" ∧
    ∃ (rule heading : List Char) (body : List (List Char)),
      (prices.grid records).toList.splitOn '\n'
        = (rule :: heading :: rule :: body ++ [rule]) ++ [[]] ∧
      (rule :: heading :: rule :: body ++ [rule]).length = 6 ∧
      (∀ line ∈ heading :: body, line.length = rule.length) ∧
      Barred (rule.idxsOf '+') ["café", "n"] heading ∧
      (∀ (row : Nat) (line : List Char), body[row]? = some line →
        Barred (rule.idxsOf '+') (prices.rowTexts records row) line) ∧
      ∀ row column, prices.cell records row column = .null →
        prices.cellText records row column = "NULL" := by
  intro records prices
  have hnames : ∀ c ∈ prices.columns, '\n' ∉ c.name.toList := by decide
  have hcells : ∀ row < 2, ∀ column < 2,
      '\n' ∉ (prices.cellText records row column).toList := by decide +kernel
  exact ⟨hnames, hcells, by decide +kernel, grid_aligned records prices hnames hcells⟩

end Grid

end Table

end OnePassSql

import OnePassSql.Proofs.Table.Predicates
import OnePassSql.Proofs.Value.Ordering

/-!
Which comparisons exclude each other. Of smaller, equal and greater at most one holds, except where
the kinds of two values say one thing and their doubles the other: a value of a later kind is greater
by its kind, whatever it is, and smaller by its double, so both can hold.
-/

namespace OnePassSql

namespace Value

variable {v w : Value}

/-- No two of the three comparisons hold. -/
def Exclusive (v w : Value) : Prop :=
  ¬(v.less w = .ok true ∧ v.equal w = true) ∧ ¬(v.equal w = true ∧ v.greater w = .ok true) ∧
    ¬(v.less w = .ok true ∧ v.greater w = .ok true)

/-- The second value is of a later kind than the first, which is not null, and both read as doubles,
of which the first is the greater one. -/
def Outweighs (v w : Value) : Prop :=
  v ≠ null ∧ v.rank < w.rank ∧ ∃ x y, v.toReal = .ok x ∧ w.toReal = .ok y ∧ x > y

/-- The kinds of the two values and their doubles are in opposite orders. -/
def Crossed (v w : Value) : Prop := v.Outweighs w ∨ w.Outweighs v

theorem compareReals_eq_true_iff {holds : Float → Float → Prop} [DecidableRel holds] :
    compareReals holds v w = .ok true ↔
      ∃ x y, v.toReal = .ok x ∧ w.toReal = .ok y ∧ holds x y := by
  unfold compareReals
  constructor
  · intro h
    obtain ⟨x, hx, h⟩ := Result.bind_eq_ok.mp h
    obtain ⟨y, hy, h⟩ := Result.bind_eq_ok.mp h
    exact ⟨x, y, hx, hy, of_decide_eq_true (Except.ok.inj h)⟩
  · rintro ⟨x, y, hx, hy, h⟩
    rw [hx, hy]
    exact congrArg Except.ok (decide_eq_true h)

theorem greater_iff_outweighs (h : v.rank < w.rank) :
    v.greater w = .ok true ↔ v.Outweighs w := by
  by_cases hv : v = null
  · subst hv
    have hgreater : null.greater w = .ok false := by cases w <;> rfl
    rw [hgreater]
    exact iff_of_false nofun fun hout => hout.1 rfl
  · rw [greater_of_rank_lt hv h, compareReals_eq_true_iff]
    exact ⟨fun hreals => ⟨hv, h, hreals⟩, fun hout => hout.2.2⟩

theorem exclusive_of_reals {x y : Float} (hless : v.less w = .ok (decide (x < y)))
    (hequal : v.equal w = (x == y)) (hgreater : v.greater w = .ok (decide (x > y))) :
    v.Exclusive w := by
  have hlt : v.less w = .ok true ↔ Binary64.order x y = some .lt := by
    rw [hless, Except.ok.injEq, decide_eq_true_iff, Binary64.lt_iff_order]
  have heq : v.equal w = true ↔ Binary64.order x y = some .eq := by
    rw [hequal, Binary64.beq_iff_order]
  have hgt : v.greater w = .ok true ↔ Binary64.order x y = some .gt := by
    rw [hgreater, Except.ok.injEq, decide_eq_true_iff, Binary64.gt_iff_order]
  rw [Exclusive, hlt, heq, hgt]
  refine ⟨?_, ?_, ?_⟩
  all_goals
    rintro ⟨h, h'⟩
    cases h.symm.trans h'

theorem exclusive_of_exactlyOne
    (h : ExactlyOne (v.less w = .ok true) (v.equal w = true) (v.greater w = .ok true)) :
    v.Exclusive w := by
  unfold ExactlyOne at h
  unfold Exclusive
  tauto

theorem exclusive_of_rank_eq (h : v.rank = w.rank) : v.Exclusive w := by
  by_cases hreal : v.rank = 1 ∧ ¬∃ m n, v = integer m ∧ w = integer n
  · obtain ⟨hv, hreal⟩ := hreal
    obtain ⟨x, y, -, -, hless, hgreater, hequal⟩ := comparisons_of_real hv (h ▸ hv) hreal
    exact exclusive_of_reals hless hequal hgreater
  · cases v <;> cases w <;> simp [rank] at h hreal
    case null.null =>
      have hequal : null.equal null = false := rfl
      have hgreater : null.greater null = .ok false := rfl
      simp [Exclusive, hequal, hgreater]
    case integer.integer m n =>
      exact exclusive_of_exactlyOne (strictlyOrdered_integer.exactlyOne m n)
    case text.text s t => exact exclusive_of_exactlyOne (strictlyOrdered_text.exactlyOne s t)
    case blob.blob a b => exact exclusive_of_exactlyOne (strictlyOrdered_blob.exactlyOne a b)

theorem Crossed.rank_ne (h : v.Crossed w) : v.rank ≠ w.rank :=
  h.elim (fun hout => hout.2.1.ne) fun hout => hout.2.1.ne'

/-- Both strict orders hold exactly if the kinds and the doubles disagree. -/
theorem less_and_greater_iff (v w : Value) :
    v.less w = .ok true ∧ v.greater w = .ok true ↔ v.Crossed w := by
  -- between different kinds one of the two orders always holds, by the kinds
  rcases lt_trichotomy v.rank w.rank with h | h | h
  · rw [greater_iff_outweighs h, Crossed, or_iff_left fun hout => h.asymm hout.2.1]
    exact and_iff_right (less_of_rank_lt h)
  · exact iff_of_false (exclusive_of_rank_eq h).2.2 fun hcrossed => hcrossed.rank_ne h
  · have hnull : ¬(v = null ∧ w = null) := by
      rintro ⟨rfl, rfl⟩
      exact h.false
    rw [less_eq_greater hnull, greater_iff_outweighs h, Crossed,
      or_iff_right fun hout => h.asymm hout.2.1]
    exact and_iff_left (greater_of_rank_gt h)

theorem exclusive_iff_not_crossed (v w : Value) : v.Exclusive w ↔ ¬v.Crossed w := by
  rw [← less_and_greater_iff]
  refine ⟨fun h => h.2.2, fun hboth => ?_⟩
  by_cases h : v.rank = w.rank
  · exact exclusive_of_rank_eq h
  · have hequal := equal_of_rank_ne h
    refine ⟨fun hand => ?_, fun hand => ?_, hboth⟩
    · cases hequal.symm.trans hand.2
    · cases hequal.symm.trans hand.1

end Value

namespace Expr

variable {scope : Scope} {e f : Expr} {v w : Value}

theorem eval_lt_iff (hv : e.eval scope = .ok v) (hw : f.eval scope = .ok w) :
    (binary .lt e f).eval scope = .ok (.integer 1) ↔ v.less w = .ok true := by
  rw [eval_binary hv hw, BinaryOp.apply, Result.map_eq_ok]
  simp

theorem eval_gt_iff (hv : e.eval scope = .ok v) (hw : f.eval scope = .ok w) :
    (binary .gt e f).eval scope = .ok (.integer 1) ↔ v.greater w = .ok true := by
  rw [eval_binary hv hw, BinaryOp.apply, Result.map_eq_ok]
  simp

/-- A test whether an operand is both smaller and greater than another. -/
theorem eval_lt_and_gt_iff :
    (binary .and (binary .lt e f) (binary .gt e f)).eval scope = .ok (.integer 1) ↔
      ∃ v w, e.eval scope = .ok v ∧ f.eval scope = .ok w ∧ v.Crossed w := by
  constructor
  · intro h
    obtain ⟨⟨p, hp⟩, q, hq⟩ := exists_values_of_binary h
    obtain ⟨⟨v, hv⟩, w, hw⟩ := exists_values_of_binary hp
    obtain ⟨r, hr, hone⟩ := Table.eval_and_of_isTest rfl rfl hp hq
    cases hr.symm.trans h
    obtain ⟨rfl, rfl⟩ := hone.mp rfl
    exact ⟨v, w, hv, hw, (Value.less_and_greater_iff v w).mp
      ⟨(eval_lt_iff hv hw).mp hp, (eval_gt_iff hv hw).mp hq⟩⟩
  · rintro ⟨v, w, hv, hw, hcrossed⟩
    obtain ⟨hless, hgreater⟩ := (Value.less_and_greater_iff v w).mpr hcrossed
    obtain ⟨r, hr, hone⟩ := Table.eval_and_of_isTest rfl rfl ((eval_lt_iff hv hw).mpr hless)
      ((eval_gt_iff hv hw).mpr hgreater)
    rw [hr, hone.mpr ⟨rfl, rfl⟩]

end Expr

namespace Table

variable {ρ : Type} [Record ρ] {records : Records ρ} {t : Table}

theorem mem_rowsWhere_iff {e : Expr} {rows : List Nat}
    (h : t.rowsWhere records (some e) = .ok rows) {row : Nat} :
    row ∈ rows ↔ row < t.rows.length ∧ e.eval (t.rowScope records row) = .ok (.integer 1) := by
  cases (filterRows_eq_filter (filterRows_hasValues h)).symm.trans h
  rw [List.mem_filter, List.mem_range, decide_eq_true_eq]

/-- At most one of smaller, equal and greater holds of two values, unless their kinds and their
doubles disagree: then both strict orders hold, and a predicate that asks for both takes exactly the
rows where its operands are such values. -/
theorem comparisons_exclusive_iff (records : Records ρ) (t : Table) (e f : Expr) :
    (∀ v w : Value, (v.Exclusive w ↔ ¬v.Crossed w) ∧
      (v.Crossed w →
        v.less w = .ok true ∧ v.equal w = false ∧ v.greater w = .ok true)) ∧
    ∀ rows, t.rowsWhere records (some (.binary .and (.binary .lt e f) (.binary .gt e f)))
        = .ok rows →
      ∀ row, row ∈ rows ↔ row < t.rows.length ∧
        ∃ v w, e.eval (t.rowScope records row) = .ok v ∧ f.eval (t.rowScope records row) = .ok w ∧
          v.Crossed w := by
  refine ⟨fun v w => ⟨Value.exclusive_iff_not_crossed v w, fun h => ?_⟩, fun rows h row => ?_⟩
  · obtain ⟨hless, hgreater⟩ := (Value.less_and_greater_iff v w).mpr h
    exact ⟨hless, Value.equal_of_rank_ne h.rank_ne, hgreater⟩
  · rw [mem_rowsWhere_iff h, Expr.eval_lt_and_gt_iff]

/-- Texts that spell numbers below and above three, a blob, and nothing. -/
def spellings : Table :=
  ⟨[.plain "a" .none], [.owned [.text "2"], .owned [.text "10"], .owned [.blob [9]], .owned [.null]]⟩

/-- Compared with three, the text of two and the blob come out both smaller and greater. -/
theorem comparisons_exclusive_iff_spellings :
    let records : Records CellRecord := ⟨[]⟩
    let a : Expr := .column "a"
    let three : Expr := .literal (.integer 3)
    (Value.text "10").Exclusive (.integer 3) ∧ ¬(Value.text "2").Exclusive (.integer 3) ∧
    spellings.rowsWhere records (some (.binary .and (.binary .lt a three) (.binary .gt a three)))
      = .ok [0, 2] ∧
    ∀ row, row ∈ [0, 2] ↔ row < 4 ∧ ∃ v w,
      a.eval (spellings.rowScope records row) = .ok v ∧
        three.eval (spellings.rowScope records row) = .ok w ∧ v.Crossed w := by
  intro records a three
  have hten : ¬((Value.text "10").less (.integer 3) = .ok true ∧
      (Value.text "10").greater (.integer 3) = .ok true) := fun h => nomatch h.1
  have htwo : (Value.text "2").less (.integer 3) = .ok true ∧
      (Value.text "2").greater (.integer 3) = .ok true := ⟨rfl, rfl⟩
  have hrows : spellings.rowsWhere records
      (some (.binary .and (.binary .lt a three) (.binary .gt a three))) = .ok [0, 2] := rfl
  obtain ⟨hpairs, htable⟩ := comparisons_exclusive_iff records spellings a three
  refine ⟨(hpairs _ _).1.mpr ?_, fun h => h.2.2 htwo, hrows, htable _ hrows⟩
  rwa [← Value.less_and_greater_iff]

/-- Two strict orders can hold of one pair of values. -/
theorem not_forall_exclusive : ¬∀ v w : Value, v.Exclusive w := by
  intro h
  exact (h (.text "2") (.integer 3)).2.2 ⟨rfl, rfl⟩

end Table

end OnePassSql

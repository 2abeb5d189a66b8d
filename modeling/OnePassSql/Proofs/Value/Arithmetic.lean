import OnePassSql.Operator
import OnePassSql.Proofs.Result
import OnePassSql.Proofs.Value.Words

/-!
Arithmetic on 64-bit integers against that on all integers. A result that is an integer comes of two
integers and is the exact one, which for a zero divisor there is none of. Negation is exact at all
integers but the least one.
-/

namespace OnePassSql

namespace Value

variable {v w : Value} {r : Int64}

/-- Both values are integers, and `result?` gives the result for them. -/
def ExactOn (result? : Int → Int → Option Int) (v w : Value) (r : Int64) : Prop :=
  ∃ m n : Int64, v = integer m ∧ w = integer n ∧ result? m.toInt n.toInt = some r.toInt

theorem exactOn_integer_iff {result? : Int → Int → Option Int} {m n : Int64} :
    ExactOn result? (integer m) (integer n) r ↔ result? m.toInt n.toInt = some r.toInt := by
  simp [ExactOn]

theorem compute_eq_integer_iff {exact : Int → Int → Int} {rounded : Float → Float → Float} :
    compute exact rounded v w = .ok (integer r) ↔
      ExactOn (fun m n => some (exact m n)) v w r := by
  unfold compute
  split
  case h_3 m n =>
    rw [exactOn_integer_iff, Option.some.injEq, ← narrow?_eq_some_iff]
    cases narrow? (exact m.toInt n.toInt) <;> simp
  case h_4 h =>
    constructor
    · intro hreal
      obtain ⟨x, -, hrest⟩ := Result.bind_eq_ok.mp hreal
      obtain ⟨y, -, hresult⟩ := Result.bind_eq_ok.mp hrest
      cases hresult
    · rintro ⟨m, n, rfl, rfl, -⟩
      exact (h m n rfl rfl).elim
  all_goals simp [ExactOn]

/-- An operation on integers that has no result for the divisor zero. -/
def divided? (exact : Int → Int → Int) (m n : Int) : Option Int :=
  if n = 0 then none else some (exact m n)

theorem divided?_toInt {exact : Int → Int → Int} {m n : Int64} :
    divided? exact m.toInt n.toInt = some r.toInt ↔ n ≠ 0 ∧ exact m.toInt n.toInt = r.toInt := by
  have hzero : n.toInt = 0 ↔ n = 0 := by rw [← Int64.toInt_zero, Int64.toInt_inj]
  simp [divided?, hzero]

/-- In doubles a division gives null or a double. -/
theorem dividedReals_ne_integer {rounded : Float → Float → Float} :
    (do
      let y ← w.toReal
      if y == 0.0 then return null
      let x ← v.toReal
      return real (rounded x y) : Except Fault Value) ≠ .ok (integer r) := by
  intro hreal
  obtain ⟨y, -, hrest⟩ := Result.bind_eq_ok.mp hreal
  split at hrest
  · cases hrest
  · obtain ⟨x, -, hresult⟩ := Result.bind_eq_ok.mp hrest
    cases hresult

theorem div_eq_integer_iff : div v w = .ok (integer r) ↔ ExactOn (divided? Int.tdiv) v w r := by
  unfold div
  split
  case h_3 m n =>
    rw [exactOn_integer_iff, divided?_toInt, ← narrow?_eq_some_iff]
    by_cases hzero : n = 0
    · simp [hzero]
    · cases narrow? (m.toInt.tdiv n.toInt) <;> simp [hzero]
  case h_4 h =>
    refine ⟨fun hreal => absurd hreal dividedReals_ne_integer, ?_⟩
    rintro ⟨m, n, rfl, rfl, -⟩
    exact (h m n rfl rfl).elim
  all_goals simp [ExactOn]

/-- The remainder always fits, the one of the least integer by -1 too. -/
theorem toInt_remainder (m n : Int64) :
    (Int64.ofInt (m.toInt.tmod n.toInt)).toInt = m.toInt.tmod n.toInt := by
  rw [← Int64.toInt_mod, Int64.ofInt_toInt]

theorem mod_eq_integer_iff : mod v w = .ok (integer r) ↔ ExactOn (divided? Int.tmod) v w r := by
  unfold mod
  split
  case h_3 m n =>
    rw [exactOn_integer_iff, divided?_toInt]
    by_cases hzero : n = 0
    · simp [hzero]
    · rw [if_neg hzero, Except.ok.injEq, integer.injEq, ← Int64.toInt_inj, toInt_remainder,
        and_iff_right hzero]
  case h_4 h =>
    refine ⟨fun hreal => absurd hreal dividedReals_ne_integer, ?_⟩
    rintro ⟨m, n, rfl, rfl, -⟩
    exact (h m n rfl rfl).elim
  all_goals simp [ExactOn]

/-! ## Negation -/

theorem toInt_neg_of_ne {n : Int64} (h : n ≠ Int64.minValue) : (-n).toInt = -n.toInt := by
  have hleast : n.toInt ≠ -2 ^ 63 := fun hn =>
    h (Int64.toInt_inj.mp (hn.trans Int64.toInt_minValue.symm))
  have hlower := n.le_toInt
  have hupper := n.toInt_lt
  rw [Int64.toInt_neg]
  exact Int.bmod_eq_of_le (by omega) (by omega)

end Value

end OnePassSql

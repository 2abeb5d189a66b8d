import OnePassSql.Expr.Evaluation
import OnePassSql.Proofs.Value.Arithmetic

/-!
The operators of arithmetic on two integers of 64 bits, up to the ends of their range. Sums,
differences, products and quotients are exact wherever the exact result fits and doubles only where it
does not, which among the quotients is one. Remainders always fit; with the quotient they make up the
dividend again.
-/

namespace OnePassSql

namespace Value

variable {m n : Int64}

/-! ## Exact results -/

/-- The outcome is an integer exactly if `exact` fits a word, and then that one. Otherwise it is the
double. -/
structure ExactOrReal (outcome : Except Fault Value) (exact : Int) (rounded : Float) : Prop where
  integer_iff : (∃ r : Int64, outcome = .ok (integer r)) ↔ FitsWord exact
  toInt_eq (r : Int64) : outcome = .ok (integer r) → r.toInt = exact
  real_iff (x : Float) : outcome = .ok (real x) ↔ ¬FitsWord exact ∧ x = rounded

section Exact

variable {outcome : Except Fault Value} {i : Int} {r : Int64} {x : Float}

/-- Whether the exact result can be narrowed decides. -/
theorem exactOrReal_of_narrow (hsome : ∀ r, narrow? i = some r → outcome = .ok (integer r))
    (hnone : narrow? i = none → outcome = .ok (real x)) : ExactOrReal outcome i x := by
  cases h : narrow? i with
  | some r =>
      have hexact : i = r.toInt := narrow?_eq_some_iff.mp h
      have hfits : FitsWord i := hexact ▸ fitsWord_toInt r
      rw [hsome r h]
      refine ⟨by simp [hfits], ?_, by simp [hfits]⟩
      intro s hs
      cases hs
      exact hexact.symm
  | none =>
      have hfits : ¬FitsWord i := narrow?_eq_none_iff.mp h
      rw [hnone h]
      exact ⟨by simp [hfits], by simp, by simp [hfits, eq_comm]⟩

theorem ExactOrReal.ne_null (h : ExactOrReal outcome i x) : outcome ≠ .ok null := by
  intro hnull
  by_cases hfits : FitsWord i
  · obtain ⟨r, hr⟩ := h.integer_iff.mpr hfits
    cases hnull.symm.trans hr
  · have hreal := (h.real_iff x).mpr ⟨hfits, rfl⟩
    cases hnull.symm.trans hreal

/-- An exact result that fits is the outcome. -/
theorem ExactOrReal.eq_integer (h : ExactOrReal outcome r.toInt x) : outcome = .ok (integer r) := by
  obtain ⟨s, hs⟩ := h.integer_iff.mpr (fitsWord_toInt r)
  rw [hs, Int64.toInt_inj.mp (h.toInt_eq s hs)]

theorem exactOrReal_compute {exact : Int → Int → Int} {rounded : Float → Float → Float} :
    ExactOrReal (compute exact rounded (integer m) (integer n)) (exact m.toInt n.toInt)
      (rounded (Float.ofInt m.toInt) (Float.ofInt n.toInt)) := by
  apply exactOrReal_of_narrow
  · intro r h
    simp [compute, h]
  · intro h
    simp [compute, h]

end Exact

/-! ## Division -/

theorem exactOrReal_div (hzero : n ≠ 0) :
    ExactOrReal (div (integer m) (integer n)) (m.toInt.tdiv n.toInt)
      (Float.ofInt m.toInt / Float.ofInt n.toInt) := by
  apply exactOrReal_of_narrow
  · intro r h
    simp [div, hzero, h]
  · intro h
    simp [div, hzero, h]

theorem div_eq_null_iff : div (integer m) (integer n) = .ok null ↔ n = 0 := by
  by_cases hzero : n = 0
  · simp [div, hzero]
  · simp [hzero, (exactOrReal_div hzero).ne_null]

/-- Of the quotients of two words, one does not fit a word. -/
theorem fitsWord_tdiv_iff : FitsWord (m.toInt.tdiv n.toInt) ↔ ¬(m = Int64.minValue ∧ n = -1) := by
  constructor
  · rintro hfits ⟨rfl, rfl⟩
    exact absurd hfits.2 (by decide)
  · intro h
    by_cases hm : m = Int64.minValue
    · rw [← Int64.toInt_div_of_ne_right m n fun hn => h ⟨hm, hn⟩]
      exact fitsWord_toInt _
    · rw [← Int64.toInt_div_of_ne_left m n hm]
      exact fitsWord_toInt _

theorem div_eq_real_iff :
    (∃ x, div (integer m) (integer n) = .ok (real x)) ↔ m = Int64.minValue ∧ n = -1 := by
  by_cases hzero : n = 0
  · subst hzero
    simp [div]
  · simp [(exactOrReal_div hzero).real_iff, fitsWord_tdiv_iff]

theorem mod_of_ne_zero (hzero : n ≠ 0) :
    mod (integer m) (integer n) = .ok (integer (Int64.ofInt (m.toInt.tmod n.toInt))) := by
  simp [mod, hzero]

theorem mod_eq_null_iff : mod (integer m) (integer n) = .ok null ↔ n = 0 := by
  by_cases hzero : n = 0
  · simp [mod, hzero]
  · simp [mod, hzero]

/-- A remainder is zero or has the sign of the dividend. -/
theorem tmod_eq_zero_or_sign (i j : Int) : i.tmod j = 0 ∨ (i.tmod j).sign = i.sign := by
  rw [← Int.sign_eq_zero_iff_zero, Int.sign_tmod]
  by_cases h : j ∣ i
  · simp [h]
  · simp [h]

/-- The multiple of the divisor within the dividend lies between zero and the dividend. -/
theorem fitsWord_tdiv_mul (m n : Int64) : FitsWord (m.toInt.tdiv n.toInt * n.toInt) := by
  have hsum := Int.tdiv_mul_add_tmod m.toInt n.toInt
  have hsize : (m.toInt.tmod n.toInt).natAbs ≤ m.toInt.natAbs := by
    rw [Int.natAbs_tmod]
    exact Nat.mod_le _ _
  -- the remainder lies between zero and the dividend, hence so does what it leaves
  have hsign := tmod_eq_zero_or_sign m.toInt n.toInt
  have hm := fitsWord_toInt m
  unfold FitsWord at hm ⊢
  rcases Int.lt_trichotomy m.toInt 0 with h | h | h
  · rw [Int.sign_eq_neg_one_of_neg h, Int.sign_eq_neg_one_iff_neg] at hsign
    omega
  · omega
  · rw [Int.sign_eq_one_of_pos h, Int.sign_eq_one_iff_pos] at hsign
    omega

/-- Quotient times divisor plus remainder is the dividend, on paper and by the operators. -/
theorem dividend_of_division {q r : Int64} (hq : div (integer m) (integer n) = .ok (integer q))
    (hr : mod (integer m) (integer n) = .ok (integer r)) :
    q.toInt * n.toInt + r.toInt = m.toInt ∧
      ∃ p : Int64, mul (integer q) (integer n) = .ok (integer p) ∧
        add (integer p) (integer r) = .ok (integer m) := by
  rw [div_eq_integer_iff, exactOn_integer_iff, divided?_toInt] at hq
  rw [mod_eq_integer_iff, exactOn_integer_iff, divided?_toInt] at hr
  have hsum : q.toInt * n.toInt + r.toInt = m.toInt := by
    rw [← hq.2, ← hr.2]
    exact Int.tdiv_mul_add_tmod m.toInt n.toInt
  have hfits : FitsWord (q.toInt * n.toInt) := hq.2 ▸ fitsWord_tdiv_mul m n
  have hmul : ExactOrReal (mul (integer q) (integer n)) (q.toInt * n.toInt) _ := exactOrReal_compute
  obtain ⟨p, hp⟩ := hmul.integer_iff.mpr hfits
  have hadd : ExactOrReal (add (integer p) (integer r)) (p.toInt + r.toInt) _ := exactOrReal_compute
  rw [hmul.toInt_eq p hp, hsum] at hadd
  exact ⟨hsum, p, hp, hadd.eq_integer⟩

end Value

namespace Expr

variable {scope : Scope} {e f : Expr} {m n : Int64}

/-- What the operators of arithmetic give for two expressions whose values are the integers `m` and
`n`. -/
structure WordArithmetic (scope : Scope) (e f : Expr) (m n : Int64) : Prop where
  sum : Value.ExactOrReal ((binary .add e f).eval scope) (m.toInt + n.toInt)
    (Float.ofInt m.toInt + Float.ofInt n.toInt)
  difference : Value.ExactOrReal ((binary .sub e f).eval scope) (m.toInt - n.toInt)
    (Float.ofInt m.toInt - Float.ofInt n.toInt)
  product : Value.ExactOrReal ((binary .mul e f).eval scope) (m.toInt * n.toInt)
    (Float.ofInt m.toInt * Float.ofInt n.toInt)
  quotient_null : (binary .div e f).eval scope = .ok .null ↔ n = 0
  quotient : n ≠ 0 → Value.ExactOrReal ((binary .div e f).eval scope) (m.toInt.tdiv n.toInt)
    (Float.ofInt m.toInt / Float.ofInt n.toInt)
  quotient_real :
    (∃ x, (binary .div e f).eval scope = .ok (.real x)) ↔ m = Int64.minValue ∧ n = -1
  remainder_null : (binary .mod e f).eval scope = .ok .null ↔ n = 0
  remainder : n ≠ 0 → ∃ r : Int64, (binary .mod e f).eval scope = .ok (.integer r) ∧
    r.toInt = m.toInt.tmod n.toInt ∧ (r.toInt = 0 ∨ r.toInt.sign = m.toInt.sign)
  /-- Quotient and remainder make up the dividend, on paper and by the operators. -/
  division (q r : Int64) : (binary .div e f).eval scope = .ok (.integer q) →
    (binary .mod e f).eval scope = .ok (.integer r) →
      q.toInt * n.toInt + r.toInt = m.toInt ∧
      (binary .add (binary .mul (binary .div e f) f) (binary .mod e f)).eval scope
        = .ok (.integer m)

/-- The operators of arithmetic are exact on integers up to the ends of their range. -/
theorem wordArithmetic_of_integers (he : e.eval scope = .ok (.integer m))
    (hf : f.eval scope = .ok (.integer n)) : WordArithmetic scope e f m n := by
  have heval (op : BinaryOp) := eval_binary he hf op
  constructor
  case sum | difference | product =>
    rw [heval]
    exact Value.exactOrReal_compute
  case quotient_null =>
    rw [heval]
    exact Value.div_eq_null_iff
  case quotient =>
    rw [heval]
    exact Value.exactOrReal_div
  case quotient_real =>
    rw [heval]
    exact Value.div_eq_real_iff
  case remainder_null =>
    rw [heval]
    exact Value.mod_eq_null_iff
  case remainder =>
    intro hzero
    refine ⟨_, (heval .mod).trans (Value.mod_of_ne_zero hzero), Value.toInt_remainder m n, ?_⟩
    rw [Value.toInt_remainder]
    exact Value.tmod_eq_zero_or_sign m.toInt n.toInt
  case division =>
    intro q r hq hr
    obtain ⟨hsum, p, hproduct, htotal⟩ :=
      Value.dividend_of_division ((heval .div).symm.trans hq) ((heval .mod).symm.trans hr)
    have hmul : (binary .mul (binary .div e f) f).eval scope = .ok (.integer p) :=
      (eval_binary hq hf .mul).trans hproduct
    exact ⟨hsum, (eval_binary hmul hr .add).trans htotal⟩

/-- The least integer and -1, where sum, product and quotient leave the range; -7 and 2, where quotient
and remainder are negative. -/
theorem wordArithmetic_of_integers_least :
    let least : Expr := .literal (.integer Int64.minValue)
    let minusOne : Expr := .literal (.integer (-1))
    let minusSeven : Expr := .literal (.integer (-7))
    let two : Expr := .literal (.integer 2)
    WordArithmetic .none least minusOne Int64.minValue (-1) ∧
      (∃ x, (binary .add least minusOne).eval .none = .ok (.real x)) ∧
      (binary .sub least minusOne).eval .none = .ok (.integer (-9223372036854775807)) ∧
      (∃ x, (binary .mul least minusOne).eval .none = .ok (.real x)) ∧
      (∃ x, (binary .div least minusOne).eval .none = .ok (.real x)) ∧
      (binary .mod least minusOne).eval .none = .ok (.integer 0) ∧
      (binary .add (binary .mul (binary .div minusSeven two) two)
        (binary .mod minusSeven two)).eval .none = .ok (.integer (-7)) := by
  intro least minusOne minusSeven two
  have h : WordArithmetic .none least minusOne Int64.minValue (-1) :=
    wordArithmetic_of_integers rfl rfl
  have h' : WordArithmetic .none minusSeven two (-7) 2 := wordArithmetic_of_integers rfl rfl
  refine ⟨h, ⟨_, (h.sum.real_iff _).mpr ⟨?_, rfl⟩⟩, rfl, ⟨_, (h.product.real_iff _).mpr ⟨?_, rfl⟩⟩,
    h.quotient_real.mpr ⟨rfl, rfl⟩, rfl, (h'.division (-3) (-1) rfl rfl).2⟩
  · exact fun hfits => absurd hfits.1 (by decide)
  · exact fun hfits => absurd hfits.2 (by decide)

end Expr

end OnePassSql

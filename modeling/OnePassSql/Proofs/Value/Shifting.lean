import Mathlib.Algebra.Order.Ring.Int
import OnePassSql.Expr.Evaluation

/-!
Shifts of 64-bit integers against multiplication and division by powers of two. To the left a shift
multiplies and wraps around, to the right it divides and rounds down, and a negative amount turns it
around. This holds of every amount, however large.
-/

namespace OnePassSql

namespace Value

variable {a : Int64} {k : Int} {n : Nat}

/-- An amount below the size of a word is taken as it is. -/
theorem toNat_amount (h : n < 64) : ((Int64.ofNat n).toBitVec.smod 64).toNat = n := by
  decide +revert

theorem toInt_shiftUp (a : Int64) (n : Nat) :
    (shiftUp a n).toInt = (a.toInt * 2 ^ n).bmod (2 ^ 64) := by
  by_cases h : 64 ≤ n
  · have hdvd : ((2 ^ 64 : Nat) : Int) ∣ a.toInt * 2 ^ n := by
      rw [Int.natCast_pow]
      exact (pow_dvd_pow 2 h).mul_left a.toInt
    rw [shiftUp, if_pos h, Int.dvd_iff_bmod_eq_zero.mp hdvd]
    rfl
  · rw [shiftUp, if_neg h]
    calc (a <<< Int64.ofNat n).toInt
        = (a.toBitVec <<< n).toInt := by
          rw [← Int64.toInt_toBitVec, Int64.toBitVec_shiftLeft, BitVec.shiftLeft_eq',
            toNat_amount (Nat.lt_of_not_le h)]
      _ = ((a.toBitVec.toNat : Int) * 2 ^ n).bmod (2 ^ 64) := by
          rw [BitVec.toInt_shiftLeft, Nat.shiftLeft_eq, Int.natCast_mul, Int.natCast_pow]
          rfl
      _ = (a.toInt * 2 ^ n).bmod (2 ^ 64) := by
          rw [← Int.bmod_mul_bmod, ← BitVec.toInt_eq_toNat_bmod, Int64.toInt_toBitVec]

theorem toInt_shiftDown (a : Int64) (n : Nat) : (shiftDown a n).toInt = a.toInt.fdiv (2 ^ n) := by
  rw [Int.fdiv_eq_ediv_of_nonneg _ (Int.pow_nonneg (by decide))]
  by_cases h : 64 ≤ n
  · have hpow : (2 : Int) ^ 64 ≤ 2 ^ n := pow_le_pow_right₀ (by decide) h
    have hlower := a.le_toInt
    have hupper := a.toInt_lt
    rw [shiftDown, if_pos h]
    by_cases hneg : a < 0
    · have hsign : a.toInt < 0 := Int64.lt_iff_toInt_lt.mp hneg
      rw [if_pos hneg, Int.ediv_eq_neg_one_of_neg_of_le hsign (by omega)]
      rfl
    · have hsign : 0 ≤ a.toInt := Int.not_lt.mp fun hlt => hneg (Int64.lt_iff_toInt_lt.mpr hlt)
      rw [if_neg hneg, Int.ediv_eq_zero_of_lt hsign (by omega)]
      rfl
  · rw [shiftDown, if_neg h, ← Int64.toInt_toBitVec, Int64.toBitVec_shiftRight,
      BitVec.toInt_sshiftRight', toNat_amount (Nat.lt_of_not_le h), Int.shiftRight_eq_div_pow,
      Int64.toInt_toBitVec, Int.natCast_pow]
    rfl

/-- A positive power of two multiplies. -/
theorem toInt_shiftBy_of_nonneg (h : 0 ≤ k) :
    (shiftBy a k).toInt = (a.toInt * 2 ^ k.natAbs).bmod (2 ^ 64) := by
  rw [shiftBy, if_neg (Int.not_lt.mpr h), toInt_shiftUp]

theorem toInt_shiftBy_of_nonpos (h : k ≤ 0) :
    (shiftBy a k).toInt = a.toInt.fdiv (2 ^ k.natAbs) := by
  rcases Int.lt_or_eq_of_le h with h | rfl
  · rw [shiftBy, if_pos h, toInt_shiftDown]
  · rw [toInt_shiftBy_of_nonneg (Int.le_refl 0)]
    simp

end Value

namespace Expr

variable {scope : Scope} {e f : Expr} {a n : Int64}

/-- The expression has the integer `i` as its value. -/
def HasInteger (scope : Scope) (e : Expr) (i : Int) : Prop :=
  ∃ r : Int64, e.eval scope = .ok (.integer r) ∧ r.toInt = i

/-- What the shifts give for two expressions whose values are the integers `a` and `n`: to the left
`a` times a power of two, wrapped around to a word, to the right the floor of `a` over that power. A
negative amount exchanges the two. -/
structure ShiftsByPowers (scope : Scope) (e f : Expr) (a n : Int64) : Prop where
  left_of_nonneg : 0 ≤ n.toInt →
    HasInteger scope (binary .shiftLeft e f) ((a.toInt * 2 ^ n.toInt.natAbs).bmod (2 ^ 64))
  left_of_neg : n.toInt < 0 →
    HasInteger scope (binary .shiftLeft e f) (a.toInt.fdiv (2 ^ n.toInt.natAbs))
  right_of_nonneg : 0 ≤ n.toInt →
    HasInteger scope (binary .shiftRight e f) (a.toInt.fdiv (2 ^ n.toInt.natAbs))
  right_of_neg : n.toInt < 0 →
    HasInteger scope (binary .shiftRight e f) ((a.toInt * 2 ^ n.toInt.natAbs).bmod (2 ^ 64))

/-- Both shifts are defined on all pairs of integers. -/
theorem shiftsByPowers_of_integers (he : e.eval scope = .ok (.integer a))
    (hf : f.eval scope = .ok (.integer n)) : ShiftsByPowers scope e f a n := by
  have hleft : (binary .shiftLeft e f).eval scope = .ok (.integer (Value.shiftBy a n.toInt)) :=
    eval_binary he hf .shiftLeft
  have hright : (binary .shiftRight e f).eval scope
      = .ok (.integer (Value.shiftBy a (-n.toInt))) := eval_binary he hf .shiftRight
  constructor
  case left_of_nonneg =>
    intro h
    exact ⟨_, hleft, Value.toInt_shiftBy_of_nonneg h⟩
  case left_of_neg =>
    intro h
    exact ⟨_, hleft, Value.toInt_shiftBy_of_nonpos (Int.le_of_lt h)⟩
  case right_of_nonneg =>
    intro h
    refine ⟨_, hright, ?_⟩
    rw [Value.toInt_shiftBy_of_nonpos (Int.neg_nonpos_of_nonneg h), Int.natAbs_neg]
  case right_of_neg =>
    intro h
    refine ⟨_, hright, ?_⟩
    rw [Value.toInt_shiftBy_of_nonneg (by omega), Int.natAbs_neg]

/-- Shifts of -3 by the least integer, and one by 63 places that loses all bits but the sign. -/
theorem shiftsByPowers_of_integers_least :
    let minusThree : Expr := .literal (.integer (-3))
    let least : Expr := .literal (.integer Int64.minValue)
    let places : Expr := .literal (.integer 63)
    ShiftsByPowers .none minusThree least (-3) Int64.minValue ∧
      (binary .shiftLeft minusThree least).eval .none = .ok (.integer (-1)) ∧
      (binary .shiftRight minusThree least).eval .none = .ok (.integer 0) ∧
      HasInteger .none (binary .shiftLeft minusThree places) (-2 ^ 63) ∧
      HasInteger .none (binary .shiftRight minusThree places) (-1) := by
  intro minusThree least places
  have h : ShiftsByPowers .none minusThree places (-3) 63 := shiftsByPowers_of_integers rfl rfl
  have hleft := h.left_of_nonneg (by decide)
  have hright := h.right_of_nonneg (by decide)
  exact ⟨shiftsByPowers_of_integers rfl rfl, rfl, rfl, hleft, hright⟩

end Expr

end OnePassSql

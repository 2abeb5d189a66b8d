import Mathlib.Algebra.Group.Int.Defs
import OnePassSql.Value.Coercion

/-! The integers that fit a word of 64 bits. Narrowing takes exactly these, as what they are. -/

namespace OnePassSql

/-- The integer is one of 64 bits. -/
def FitsWord (i : Int) : Prop := -2 ^ 63 ≤ i ∧ i < 2 ^ 63

theorem fitsWord_toInt (n : Int64) : FitsWord n.toInt := ⟨n.le_toInt, n.toInt_lt⟩

theorem narrow?_eq_some_iff {i : Int} {r : Int64} : narrow? i = some r ↔ i = r.toInt := by
  unfold narrow?
  split
  case isTrue h =>
    rw [Int64.toInt_minValue, Int64.toInt_maxValue, Int.le_sub_one_iff] at h
    rw [Option.some.injEq]
    constructor
    · rintro rfl
      exact (Int64.toInt_ofInt_of_le h.1 h.2).symm
    · rintro rfl
      exact Int64.ofInt_toInt r
  case isFalse h =>
    refine ⟨nofun, ?_⟩
    rintro rfl
    exact absurd ⟨r.minValue_le_toInt, r.toInt_le⟩ h

/-- Narrowing leaves out what does not fit. -/
theorem narrow?_eq_none_iff {i : Int} : narrow? i = none ↔ ¬FitsWord i := by
  constructor
  · intro h hfits
    have hword : (Int64.ofInt i).toInt = i := Int64.toInt_ofInt_of_le hfits.1 hfits.2
    simp [narrow?_eq_some_iff.mpr hword.symm] at h
  · intro h
    cases hword : narrow? i with
    | none => rfl
    | some r =>
        rw [narrow?_eq_some_iff] at hword
        exact absurd (hword ▸ fitsWord_toInt r) h

theorem narrow?_of_lt {n : Nat} (h : n < Nat.pow 2 63) :
    narrow? (n : Int) = some (Int64.ofNat n) := by
  rw [Nat.pow_eq] at h
  rw [narrow?_eq_some_iff, ← Int64.ofInt_eq_ofNat, Int64.toInt_ofInt_of_le (by omega) (by omega)]

end OnePassSql

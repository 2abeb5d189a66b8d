import Mathlib.Algebra.Group.Int.Defs
import Mathlib.Algebra.Group.Nat.Defs
import OnePassSql.Proofs.Result
import OnePassSql.Table.Basic

/-!
The readers of whole numbers. The narrow one keeps the low 32 bits of the number that the wide one
gives, and the reader of truth values asks the narrow one. The three agree where the number fits 32
bits.
-/

namespace OnePassSql

/-- The integer is one of 32 bits. -/
def FitsHalfWord (i : Int) : Prop := -2 ^ 31 ≤ i ∧ i < 2 ^ 31

/-- Narrowing leaves alone exactly what fits. -/
theorem bmod_eq_self_iff {i : Int} : i.bmod (2 ^ 32) = i ↔ FitsHalfWord i := by
  unfold FitsHalfWord
  rw [Int.bmod_eq_iff (by decide)]
  omega

namespace Value

/-- What three readers make of one value: its number narrowed, its number, and whether that is one. -/
structure ReadAlike (narrow : Except Fault Int32) (wide : Except Fault Int64)
    (truth : Except Fault Bool) : Prop where
  fault_iff (fault : Fault) : narrow = .error fault ↔ wide = .error fault
  truth_fault_iff (fault : Fault) : truth = .error fault ↔ wide = .error fault
  low_bits (k : Int32) : narrow = .ok k →
    ∃ n : Int64, wide = .ok n ∧ k.toInt = n.toInt.bmod (2 ^ 32)
  same_iff (k : Int32) (n : Int64) : narrow = .ok k → wide = .ok n →
    (k.toInt = n.toInt ↔ FitsHalfWord n.toInt)
  truth_of_one : wide = .ok 1 → truth = .ok true
  low_bits_of_truth : truth = .ok true → ∃ n : Int64, wide = .ok n ∧ n.toInt.bmod (2 ^ 32) = 1
  truth_iff (n : Int64) : wide = .ok n → FitsHalfWord n.toInt → (truth = .ok true ↔ n = 1)

/-- The low bits of a number are those of one. -/
theorem toInt32_beq_one_iff {n : Int64} : (n.toInt32 == 1) = true ↔ n.toInt.bmod (2 ^ 32) = 1 := by
  rw [beq_iff_eq, ← Int32.toInt_inj, Int64.toInt_toInt32]
  rfl

/-- Readers that ask one another, the truth the narrow number and this the wide one, read alike. -/
theorem readAlike_of_wide (wide : Except Fault Int64) :
    ReadAlike (Int64.toInt32 <$> wide) wide ((· == 1) <$> Int64.toInt32 <$> wide) := by
  cases wide with
  | error fault =>
      constructor
      case fault_iff | truth_fault_iff =>
        intro other
        exact ⟨fun h => by cases h; rfl, fun h => by cases h; rfl⟩
      all_goals exact nofun
  | ok n =>
      have htruth : (.ok (n.toInt32 == 1) : Except Fault Bool) = .ok true ↔
          n.toInt.bmod (2 ^ 32) = 1 := by
        rw [Except.ok.injEq, toInt32_beq_one_iff]
      constructor
      case fault_iff | truth_fault_iff => exact fun _ => iff_of_false nofun nofun
      case low_bits =>
        rintro k hk
        cases hk
        exact ⟨n, rfl, Int64.toInt_toInt32 n⟩
      case same_iff =>
        rintro k m hk hm
        cases hk
        cases hm
        rw [Int64.toInt_toInt32, bmod_eq_self_iff]
      case truth_of_one =>
        intro hone
        cases hone
        rfl
      case low_bits_of_truth => exact fun h => ⟨n, rfl, htruth.mp h⟩
      case truth_iff =>
        rintro m hm hfits
        cases hm
        rw [← Int64.toInt_inj, ← bmod_eq_self_iff.mpr hfits]
        exact htruth

/-- All values but reals are read as a narrow number through the wide one. -/
theorem asInt32_eq_map {v : Value} (h : v.type ≠ .real) :
    v.asInt32 = Int64.toInt32 <$> v.asInt64 := by
  cases v with
  | real x => exact absurd rfl h
  | _ => rfl

theorem readAlike_of_type_ne_real {v : Value} (h : v.type ≠ .real) :
    ReadAlike v.asInt32 v.asInt64 v.asBool := by
  rw [asBool, asInt32_eq_map h]
  exact readAlike_of_wide v.asInt64

end Value

namespace Table

variable {ρ : Type} [Record ρ]

/-- The readers of whole numbers agree on numbers that fit 32 bits, of values and of cells; of a wider
number the narrow ones see the low bits. Reals apart, they fail together. -/
theorem readers_alike {v : Value} (h : v.type ≠ .real) :
    Value.ReadAlike v.asInt32 v.asInt64 v.asBool ∧
      ∀ (records : Records ρ) (t : Table) (row column : Nat), t.cell records row column = v →
        Value.ReadAlike (t.cellAs Value.asInt32 records row column)
          (t.cellAs Value.asInt64 records row column)
          (t.cellAs Value.asBool records row column) := by
  have hread := Value.readAlike_of_type_ne_real h
  refine ⟨hread, ?_⟩
  rintro records t row column rfl
  exact hread

/-- A column of wide and narrow numbers, and of the text of one. -/
def numerals : Table :=
  ⟨[.plain "n" .none],
    [.owned [.integer 4294967297], .owned [.integer (-7)], .owned [.text "+1"]]⟩

/-- The text of one is one to all three readers, and a number of 33 bits with the low bits of one is
one to the narrow reader. -/
theorem readers_alike_numerals :
    let records : Records CellRecord := ⟨[]⟩
    let wide : Value := .integer 4294967297
    Value.ReadAlike wide.asInt32 wide.asInt64 wide.asBool ∧
      numerals.cellAs Value.asInt32 records 0 0 = .ok 1 ∧
      numerals.cellAs Value.asInt64 records 0 0 = .ok 4294967297 ∧
      numerals.cellAs Value.asInt64 records 2 0 = .ok 1 ∧
      numerals.cellAs Value.asBool records 2 0 = .ok true := by
  intro records wide
  have hwide := (readers_alike (ρ := CellRecord) (v := wide) (by decide)).1
  have hone : numerals.cellAs Value.asInt64 records 2 0 = .ok 1 := by decide
  have htext := (readers_alike (v := .text "+1") (by decide)).2 records numerals 2 0 rfl
  exact ⟨hwide, rfl, rfl, hone, htext.truth_of_one hone⟩

/-- Read as a narrow number, an integer or a text need not be what it is. -/
theorem not_readers_same :
    ¬∀ v : Value, ((∃ n, v = .integer n) ∨ ∃ s, v = .text s) →
      (∀ k : Int32, v.asInt32 = .ok k → ∃ n : Int64, v.asInt64 = .ok n ∧ n.toInt = k.toInt) ∧
        (v.asBool = .ok true ↔ v.asInt64 = .ok 1) := by
  intro h
  obtain ⟨n, hn, hsame⟩ := (h (.integer 4294967297) (.inl ⟨_, rfl⟩)).1 1 rfl
  cases hn
  exact absurd hsame (by decide)

end Table

end OnePassSql

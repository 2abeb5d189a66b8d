import OnePassSql.Proofs.Value.Kinds
import OnePassSql.Proofs.Value.Words

/-!
Integers and the digits that spell them: what fits 64 bits is read back from its decimal digits. So a
column that stores an integer as text loses nothing.
-/

namespace OnePassSql

theorem splitSign_of_digits {cs : List Char} (hdigits : ∀ c ∈ cs, c.isDigit = true) :
    Binary64.splitSign cs = (false, cs) := by
  unfold Binary64.splitSign
  split
  next rest =>
    have hminus := hdigits '-' List.mem_cons_self
    cases hminus
  next rest =>
    have hplus := hdigits '+' List.mem_cons_self
    cases hplus
  next => rfl

/-- Digits behind a sign are read as the number they spell with it, if it fits. -/
theorem integerOfText?_of_splitSign {s : String} {ds : List Char} {negative : Bool}
    (hsplit : Binary64.splitSign s.toList = (negative, ds)) (hne : ds ≠ [])
    (hdigits : ∀ c ∈ ds, c.isDigit = true) :
    integerOfText? s =
      narrow? (if negative then -(Binary64.digitsValue ds : Int) else Binary64.digitsValue ds) := by
  have hguard : ¬(ds.isEmpty = true ∨ (!ds.all Char.isDigit) = true) := by
    simpa [hne] using hdigits
  rw [integerOfText?, hsplit]
  dsimp only
  rw [if_neg hguard]

/-- Digits are read as the number they spell, if it fits. -/
theorem integerOfText?_of_digits {cs : List Char} (hne : cs ≠ [])
    (hdigits : ∀ c ∈ cs, c.isDigit = true) (h : Binary64.digitsValue cs < Nat.pow 2 63) :
    integerOfText? (String.ofList cs) = some (Int64.ofNat (Binary64.digitsValue cs)) := by
  have hsplit : Binary64.splitSign (String.ofList cs).toList = (false, cs) := by
    rw [String.toList_ofList, splitSign_of_digits hdigits]
  rw [integerOfText?_of_splitSign hsplit hne hdigits]
  exact narrow?_of_lt h

/-! ## Decimal texts -/

/-- The decimal digits of a number spell it. -/
theorem digitsValue_toDigits (n : Nat) : Binary64.digitsValue (Nat.toDigits 10 n) = n := by
  have hcomm : Binary64.digitsValue (Nat.toDigits 10 n)
      = Nat.ofDigitChars 10 (Nat.toDigits 10 n) 0 := by
    rw [Binary64.digitsValue, Nat.ofDigitChars_eq_foldl]
    simp only [Nat.mul_comm]
  rw [hcomm, Nat.ofDigitChars_ten_toDigits]

theorem isDigit_toDigits (n : Nat) : ∀ c ∈ Nat.toDigits 10 n, c.isDigit = true := fun _ hc =>
  Nat.isDigit_of_mem_toDigits (by decide) (by decide) hc

/-- An integer from zero on is written with its digits. -/
theorem toList_toString_of_nonneg {i : Int} (h : 0 ≤ i) :
    (toString i).toList = Nat.toDigits 10 i.natAbs := by
  obtain ⟨m, rfl⟩ := Int.eq_ofNat_of_zero_le h
  calc (toString (m : Int)).toList
      = (toString m).toList := rfl
    _ = Nat.toDigits 10 m := by simp

/-- A negative integer is written with a minus sign before the digits of its size. -/
theorem toList_toString_of_neg {i : Int} (h : i < 0) :
    (toString i).toList = '-' :: Nat.toDigits 10 i.natAbs := by
  obtain ⟨m, rfl⟩ := Int.eq_negSucc_of_lt_zero h
  calc (toString (Int.negSucc m)).toList
      = ("-" ++ toString (m + 1)).toList := rfl
    _ = '-' :: Nat.toDigits 10 (m + 1) := by simp

/-- Every integer is read back from its decimal text. -/
theorem integerOfText?_toString (n : Int64) : integerOfText? (toString n.toInt) = some n := by
  have hdigits := isDigit_toDigits n.toInt.natAbs
  by_cases h : 0 ≤ n.toInt
  · have hsplit : Binary64.splitSign (toString n.toInt).toList
        = (false, Nat.toDigits 10 n.toInt.natAbs) := by
      rw [toList_toString_of_nonneg h, splitSign_of_digits hdigits]
    rw [integerOfText?_of_splitSign hsplit Nat.toDigits_ne_nil hdigits, digitsValue_toDigits,
      if_neg Bool.false_ne_true, narrow?_eq_some_iff]
    omega
  · have hsplit : Binary64.splitSign (toString n.toInt).toList
        = (true, Nat.toDigits 10 n.toInt.natAbs) := by
      rw [toList_toString_of_neg (Int.not_le.mp h)]
      rfl
    rw [integerOfText?_of_splitSign hsplit Nat.toDigits_ne_nil hdigits, digitsValue_toDigits,
      if_pos rfl, narrow?_eq_some_iff]
    omega

/-! ## Storage as text -/

namespace Value

/-- A type that keeps numbers as text writes an integer out. -/
theorem coerce_integer_of_textual {type : ColumnType}
    (h : type ∈ [ColumnType.text, .numeric, .none]) (n : Int64) :
    (integer n).coerce type = .ok (text (toString n.toInt)) := by
  simp only [List.mem_cons, List.not_mem_nil, or_false] at h
  rcases h with rfl | rfl | rfl <;> rfl

theorem parseInteger_toString (n : Int64) (target : ColumnType) :
    parseInteger (toString n.toInt) target = .ok n := by
  rw [parseInteger, integerOfText?_toString]

/-- The text of an integer is brought back to it. -/
theorem coerce_text_toString (n : Int64) :
    (text (toString n.toInt)).coerce .integer = .ok (integer n) := by
  rw [coerce, parseInteger_toString]
  rfl

/-- Stored as text, by any of the types that do so, an integer can be brought back and read. So can one
that came of a text, whatever sign and zeros it was spelled with. -/
theorem integer_survives_text {type : ColumnType}
    (h : type ∈ [ColumnType.text, .numeric, .none]) :
    (∀ n : Int64, ∃ s, (integer n).coerce type = .ok (text s) ∧
      (text s).coerce .integer = .ok (integer n) ∧ (text s).asInt64 = .ok n) ∧
    ∀ (s : String) (v : Value), (text s).coerce .integer = .ok v →
      ∃ n t, v = integer n ∧ v.coerce type = .ok (text t) ∧ (text t).coerce .integer = .ok v := by
  have hstore := coerce_integer_of_textual h
  constructor
  · intro n
    exact ⟨_, hstore n, coerce_text_toString n, parseInteger_toString n .integer⟩
  · intro s v hv
    obtain ⟨n, -, rfl⟩ := Result.map_eq_ok.mp hv
    exact ⟨n, _, rfl, hstore n, coerce_text_toString n⟩

/-- The least integer, and a text with a plus sign and leading zeros. -/
theorem integer_survives_text_least :
    ColumnType.numeric ∈ [ColumnType.text, .numeric, .none] ∧
      (∃ s, (integer Int64.minValue).coerce .numeric = .ok (text s) ∧
        (text s).coerce .integer = .ok (integer Int64.minValue) ∧
        (text s).asInt64 = .ok Int64.minValue) ∧
      (text "+007").coerce .integer = .ok (integer 7) ∧
      ∃ t, (integer 7).coerce .numeric = .ok (text t) ∧
        (text t).coerce .integer = .ok (integer 7) := by
  have htype : ColumnType.numeric ∈ [ColumnType.text, .numeric, .none] := by decide
  have hseven : (text "+007").coerce .integer = .ok (integer 7) := by decide
  obtain ⟨hleast, htext⟩ := integer_survives_text htype
  obtain ⟨n, t, -, hstore, hback⟩ := htext "+007" (integer 7) hseven
  exact ⟨htype, hleast Int64.minValue, hseven, t, hstore, hback⟩

end Value

end OnePassSql

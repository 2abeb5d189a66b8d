/-! Sets of characters given as ranges of code points. -/

namespace OnePassSql.Text

/-- The character's code point lies in one of the closed ranges. -/
def within (ranges : List (Nat × Nat)) (c : Char) : Bool :=
  ranges.any fun r => decide (r.1 ≤ c.toNat) && decide (c.toNat ≤ r.2)

theorem within_iff {ranges : List (Nat × Nat)} {c : Char} :
    within ranges c = true ↔ ∃ r ∈ ranges, r.1 ≤ c.toNat ∧ c.toNat ≤ r.2 := by
  simp [within]

end OnePassSql.Text

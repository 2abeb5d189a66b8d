import OnePassSql.Proofs.Result
import OnePassSql.Value.Coercion

/-!
The kinds of values that a column type asks for. Coercion leads into them and leaves alone what is
there, so a second coercion does nothing.
-/

namespace OnePassSql.Value

/-- The value is null or of the kind that the type declares. -/
def fits : Value → ColumnType → Bool
  | null, _ => true
  | integer _, .integer => true
  | real _, .real => true
  | text _, .text | text _, .numeric | text _, .none => true
  | blob _, .none => true
  | _, _ => false

theorem fits_integer_iff {n : Int64} {type : ColumnType} :
    (integer n).fits type = true ↔ type = .integer := by
  cases type <;> simp [fits]

/-- Coercion ends in the kinds of the type. -/
theorem fits_of_coerce {v w : Value} {type : ColumnType} (h : v.coerce type = .ok w) :
    w.fits type = true := by
  cases v with
  | text s =>
      cases type with
      | integer =>
          obtain ⟨n, -, rfl⟩ := Result.map_eq_ok.mp h
          rfl
      | real =>
          obtain ⟨x, -, rfl⟩ := Result.map_eq_ok.mp h
          rfl
      | _ => cases h; rfl
  | _ => cases type <;> cases h <;> rfl

/-- Coercion keeps what is of the kinds of the type. -/
theorem coerce_of_fits {v : Value} {type : ColumnType} (h : v.fits type = true) :
    v.coerce type = .ok v := by
  cases v <;> cases type <;> simp [fits] at h <;> rfl

theorem coerce_of_coerce {v w : Value} {type : ColumnType} (h : v.coerce type = .ok w) :
    w.coerce type = .ok w :=
  coerce_of_fits (fits_of_coerce h)

/-- The value brought to the type if it can be, and left alone otherwise. -/
def brought (v : Value) (type : ColumnType) : Value :=
  match v.coerce type with
  | .ok w => w
  | .error _ => v

theorem coerce_eq_brought {v w : Value} {type : ColumnType} (h : v.coerce type = .ok w) :
    v.coerce type = .ok (v.brought type) := by
  rw [brought, h]

theorem brought_of_fits {v : Value} {type : ColumnType} (h : v.fits type = true) :
    v.brought type = v := by
  rw [brought, coerce_of_fits h]

/-- What can be brought to the type stays the same only if it is of its kinds. -/
theorem brought_eq_self_iff {v w : Value} {type : ColumnType} (h : v.coerce type = .ok w) :
    v.brought type = v ↔ v.fits type = true := by
  refine ⟨fun heq => ?_, brought_of_fits⟩
  rw [brought, h] at heq
  exact heq ▸ fits_of_coerce h

/-- An integer can be brought to every type. -/
theorem integer_coerce (n : Int64) (type : ColumnType) : ∃ w, (integer n).coerce type = .ok w := by
  cases type <;> exact ⟨_, rfl⟩

end OnePassSql.Value

import OnePassSql.Expr.Evaluation
import OnePassSql.Proofs.Value.Kinds

/-!
Type soundness of expressions. The static type of an expression does not say of which kind its values
are: a quotient of integers can be null, a sum of integers that leaves them is a real. But where the
type is INTEGER or REAL no text and no blob comes out, so every value can be brought to the type.
-/

namespace OnePassSql

namespace Value

/-- The value is null, an integer or a real. -/
def NullOrNumeric (v : Value) : Prop := v = null ∨ v.isNumeric = true

section Coercion

variable {v : Value} {type : ColumnType}

theorem nullOrNumeric_of_fits (h : v.fits type = true)
    (htype : type = .integer ∨ type = .real) : v.NullOrNumeric := by
  rcases htype with rfl | rfl <;> cases v <;> simp [fits, NullOrNumeric, isNumeric] at h ⊢

/-- Only text can fail to be brought to a type, and only to the types of numbers. -/
theorem exists_coerce (h : type = .integer ∨ type = .real → v.NullOrNumeric) :
    ∃ w, v.coerce type = .ok w := by
  cases type with
  | integer =>
      rcases h (.inl rfl) with rfl | hnumeric
      · exact ⟨null, rfl⟩
      · cases v <;> cases hnumeric <;> exact ⟨_, rfl⟩
  | real =>
      rcases h (.inr rfl) with rfl | hnumeric
      · exact ⟨null, rfl⟩
      · cases v <;> cases hnumeric <;> exact ⟨_, rfl⟩
  | text => cases v <;> exact ⟨_, rfl⟩
  | numeric => cases v <;> exact ⟨_, rfl⟩
  | none => cases v <;> exact ⟨_, rfl⟩

end Coercion

/-! ## Operators -/

section Operators

variable {v w r : Value}

theorem nullOrNumeric_integer (n : Int64) : (integer n).NullOrNumeric := .inr rfl

theorem nullOrNumeric_real (x : Float) : (real x).NullOrNumeric := .inr rfl

theorem nullOrNumeric_null : null.NullOrNumeric := .inl rfl

theorem nullOrNumeric_compute {exact : Int → Int → Int} {rounded : Float → Float → Float}
    (h : compute exact rounded v w = .ok r) : r.NullOrNumeric := by
  unfold compute at h
  split at h
  · cases h
    exact nullOrNumeric_null
  · cases h
    exact nullOrNumeric_null
  · split at h
    · cases h
      exact nullOrNumeric_integer _
    · cases h
      exact nullOrNumeric_real _
  · obtain ⟨x, -, hrest⟩ := Result.bind_eq_ok.mp h
    obtain ⟨y, -, hreal⟩ := Result.bind_eq_ok.mp hrest
    cases hreal
    exact nullOrNumeric_real _

theorem nullOrNumeric_div (h : div v w = .ok r) : r.NullOrNumeric := by
  unfold div at h
  split at h
  · cases h
    exact nullOrNumeric_null
  · cases h
    exact nullOrNumeric_null
  · split at h
    · cases h
      exact nullOrNumeric_null
    · split at h
      · cases h
        exact nullOrNumeric_integer _
      · cases h
        exact nullOrNumeric_real _
  · obtain ⟨y, -, hrest⟩ := Result.bind_eq_ok.mp h
    split at hrest
    · cases hrest
      exact nullOrNumeric_null
    · obtain ⟨x, -, hreal⟩ := Result.bind_eq_ok.mp hrest
      cases hreal
      exact nullOrNumeric_real _

theorem nullOrNumeric_mod (h : mod v w = .ok r) : r.NullOrNumeric := by
  unfold mod at h
  split at h
  · cases h
    exact nullOrNumeric_null
  · cases h
    exact nullOrNumeric_null
  · split at h
    · cases h
      exact nullOrNumeric_null
    · cases h
      exact nullOrNumeric_integer _
  · obtain ⟨y, -, hrest⟩ := Result.bind_eq_ok.mp h
    split at hrest
    · cases hrest
      exact nullOrNumeric_null
    · obtain ⟨x, -, hreal⟩ := Result.bind_eq_ok.mp hrest
      cases hreal
      exact nullOrNumeric_real _

theorem nullOrNumeric_shift {amount : Int → Int} (h : shift amount v w = .ok r) :
    r.NullOrNumeric := by
  unfold shift at h
  split at h
  · cases h
    exact nullOrNumeric_null
  · obtain ⟨a, -, hrest⟩ := Result.bind_eq_ok.mp h
    obtain ⟨n, -, hinteger⟩ := Result.bind_eq_ok.mp hrest
    cases hinteger
    exact nullOrNumeric_integer _

theorem nullOrNumeric_negate (hv : v.NullOrNumeric) (h : v.negate = .ok r) : r.NullOrNumeric := by
  rcases hv with rfl | hnumeric
  · cases h
    exact nullOrNumeric_null
  · cases v <;> cases hnumeric <;> cases h
    · exact nullOrNumeric_integer _
    · exact nullOrNumeric_real _

theorem nullOrNumeric_map_ofBool {ε : Type} {x : Except ε Bool} {f : Bool → Bool}
    (h : (fun b => ofBool (f b)) <$> x = .ok r) : r.NullOrNumeric := by
  obtain ⟨b, -, rfl⟩ := Result.map_eq_ok.mp h
  exact nullOrNumeric_integer _

end Operators

end Value

/-- All operators but the concatenation give numbers, truth values among them. -/
theorem BinaryOp.nullOrNumeric_apply {op : BinaryOp} {v w r : Value} (hop : op ≠ .concat)
    (h : op.apply v w = .ok r) : r.NullOrNumeric := by
  cases op with
  | concat => exact absurd rfl hop
  | eq | ne | and | or =>
      cases h
      exact Value.nullOrNumeric_integer _
  | lt | gt => exact Value.nullOrNumeric_map_ofBool (f := id) h
  | le | ge => exact Value.nullOrNumeric_map_ofBool h
  | add | sub | mul => exact Value.nullOrNumeric_compute h
  | div => exact Value.nullOrNumeric_div h
  | mod => exact Value.nullOrNumeric_mod h
  | shiftLeft | shiftRight => exact Value.nullOrNumeric_shift h

/-! ## Expressions -/

/-- The values that the scope has for names are of the kinds that the heading declares. -/
def Scope.Under (heading scope : Scope) : Prop :=
  ∀ name v type, heading.type name = .ok type → scope.value name = .ok v → v.fits type = true

namespace Expr

variable {heading scope : Scope}

/-- An expression of type INTEGER or REAL evaluates to null or to a number. Only a negation hangs on
what its operand is. -/
theorem nullOrNumeric_eval (h : heading.Under scope) : ∀ {e : Expr} {type : ColumnType} {v : Value},
    e.staticType heading = .ok type → type = .integer ∨ type = .real → e.eval scope = .ok v →
      v.NullOrNumeric
  | literal v, type, w, htype, hnumber, heval => by
      rw [staticType, Except.ok.injEq] at htype
      rw [eval, Except.ok.injEq] at heval
      subst heval
      subst htype
      cases v <;> simp [Value.type, Value.NullOrNumeric, Value.isNumeric] at hnumber ⊢
  | parameter index, type, v, htype, hnumber, _ => by
      cases htype
      simp at hnumber
  | column name, type, v, htype, hnumber, heval =>
      Value.nullOrNumeric_of_fits (h name v type htype heval) hnumber
  | unary .negate e, type, v, htype, hnumber, heval => by
      obtain ⟨w, hw, hnegate⟩ := Result.bind_eq_ok.mp heval
      exact Value.nullOrNumeric_negate (nullOrNumeric_eval h (e := e) htype hnumber hw) hnegate
  | unary .not e, type, v, _, _, heval
  | unary .notNull e, type, v, _, _, heval
  | unary .isNull e, type, v, _, _, heval => by
      obtain ⟨w, -, hv⟩ := Result.bind_eq_ok.mp heval
      cases hv
      exact Value.nullOrNumeric_integer _
  | binary op l r, type, v, htype, hnumber, heval => by
      have hop : op ≠ .concat := by
        rintro rfl
        cases htype
        simp at hnumber
      obtain ⟨x, -, hrest⟩ := Result.bind_eq_ok.mp heval
      obtain ⟨y, -, happly⟩ := Result.bind_eq_ok.mp hrest
      exact BinaryOp.nullOrNumeric_apply hop happly
  | call function arguments, type, v, htype, _, _ => by cases htype
  | membership e list negated, type, v, _, _, heval => by cases heval

/-- Whatever an expression evaluates to can be brought to its type, and to REAL where that is
INTEGER. -/
theorem exists_coerce_of_eval (h : heading.Under scope) {e : Expr} {type target : ColumnType}
    {v : Value} (htype : e.staticType heading = .ok type)
    (htarget : target = type ∨ type = .integer ∧ target = .real) (heval : e.eval scope = .ok v) :
    ∃ w, v.coerce target = .ok w := by
  apply Value.exists_coerce
  intro hnumber
  apply nullOrNumeric_eval h htype ?_ heval
  rcases htarget with rfl | ⟨hinteger, -⟩
  · exact hnumber
  · exact .inl hinteger

end Expr

end OnePassSql

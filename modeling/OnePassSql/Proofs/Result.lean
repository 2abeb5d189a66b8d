import Mathlib.Data.List.Forall2

/-! Computations that may fault, without a state: what a result says of the parts. -/

namespace OnePassSql.Result

variable {ε α β : Type}

theorem bind_eq_ok {x : Except ε α} {f : α → Except ε β} {b : β} :
    (x >>= f) = .ok b ↔ ∃ a, x = .ok a ∧ f a = .ok b := by
  cases x <;> simp [bind, Except.bind]

theorem eq_ok_of_toOption {x : Except ε α} {a : α} (h : x.toOption = some a) : x = .ok a := by
  cases x with
  | ok b => rw [Option.some.inj h]
  | error e => cases h

theorem map_eq_ok {f : α → β} {x : Except ε α} {b : β} :
    f <$> x = .ok b ↔ ∃ a, x = .ok a ∧ f a = b := by
  cases x <;> simp [Functor.map, Except.map]

/-- A list of computations has results if each one has its own. -/
theorem mapM_eq_ok {f : α → Except ε β} {xs : List α} {ys : List β} :
    xs.mapM f = .ok ys ↔ List.Forall₂ (fun x y => f x = .ok y) xs ys := by
  induction xs generalizing ys with
  | nil =>
      rw [List.mapM_nil, List.forall₂_nil_left_iff]
      exact ⟨fun h => by cases h; rfl, fun h => by cases h; rfl⟩
  | cons x xs ih =>
      rw [List.mapM_cons, bind_eq_ok, List.forall₂_cons_left_iff]
      constructor
      · rintro ⟨y, hy, h⟩
        obtain ⟨rest, hrest, hys⟩ := bind_eq_ok.mp h
        cases hys
        exact ⟨y, rest, hy, ih.mp hrest, rfl⟩
      · rintro ⟨y, rest, hy, hrest, rfl⟩
        exact ⟨y, hy, bind_eq_ok.mpr ⟨rest, ih.mpr hrest, rfl⟩⟩

/-! ## Lists that correspond item by item -/

variable {R : α → β → Prop} {xs : List α} {ys : List β} {i : Nat}

theorem exists_right_of_forall₂ (h : List.Forall₂ R xs ys) {x : α} (hx : xs[i]? = some x) :
    ∃ y, ys[i]? = some y ∧ R x y := by
  induction h generalizing i with
  | nil => simp at hx
  | cons hfirst _ ih =>
      cases i with
      | zero =>
          cases hx
          exact ⟨_, rfl, hfirst⟩
      | succ i => exact ih hx

theorem exists_left_of_forall₂ (h : List.Forall₂ R xs ys) {y : β} (hy : ys[i]? = some y) :
    ∃ x, xs[i]? = some x ∧ R x y :=
  exists_right_of_forall₂ h.flip hy

theorem forall₂_of_getElem? (hlength : xs.length = ys.length)
    (h : ∀ (i : Nat) (x : α) (y : β), xs[i]? = some x → ys[i]? = some y → R x y) :
    List.Forall₂ R xs ys :=
  List.forall₂_iff_get.mpr ⟨hlength, fun i hx hy =>
    h i _ _ (List.getElem?_eq_getElem hx) (List.getElem?_eq_getElem hy)⟩

/-- If every item has one that corresponds to it, the list has such a list. -/
theorem exists_forall₂ (h : ∀ x ∈ xs, ∃ y, R x y) : ∃ ys, List.Forall₂ R xs ys := by
  induction xs with
  | nil => exact ⟨[], .nil⟩
  | cons x xs ih =>
      rw [List.forall_mem_cons] at h
      obtain ⟨y, hy⟩ := h.1
      obtain ⟨ys, hys⟩ := ih h.2
      exact ⟨y :: ys, .cons hy hys⟩

/-- An item may be replaced by another one that corresponds. -/
theorem forall₂_set (h : List.Forall₂ R xs ys) {x : α} {y : β} (hx : xs[i]? = some x)
    (hy : R x y) : List.Forall₂ R xs (ys.set i y) := by
  induction h generalizing i with
  | nil => exact .nil
  | cons hfirst hrest ih =>
      cases i with
      | zero =>
          cases hx
          exact .cons hy hrest
      | succ i => exact .cons hfirst (ih hx)

end OnePassSql.Result

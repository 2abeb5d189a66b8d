import OnePassSql.Proofs.Result
import OnePassSql.Proofs.Step

/-!
How computations end, results and faults alike. A step that starts in a state with an invariant ends
in one with it and with a result of some kind, or it raises a fault of some kind; the kinds of a
computation are put together from those of its parts.
-/

namespace OnePassSql

namespace Result

variable {ε α β : Type} {E : ε → Prop} {x : Except ε α}

/-- The computation faults with one of `E` or not at all. -/
def Raises (E : ε → Prop) (x : Except ε α) : Prop := ∀ e, x = .error e → E e

theorem raises_ok (a : α) : Raises E (.ok a : Except ε α) := fun _ h => nomatch h

theorem raises_error {e : ε} (h : E e) : Raises E (.error e : Except ε α) := by
  intro e' he
  cases he
  exact h

theorem Raises.mono {F : ε → Prop} (hx : Raises E x) (h : ∀ e, E e → F e) : Raises F x :=
  fun e he => h e (hx e he)

theorem raises_bind {f : α → Except ε β} (hx : Raises E x)
    (hf : ∀ a, x = .ok a → Raises E (f a)) : Raises E (x >>= f) := by
  intro e he
  cases hxs : x with
  | ok a =>
      rw [hxs] at he
      exact hf a hxs e he
  | error e' =>
      rw [hxs] at he
      cases he
      exact hx _ hxs

theorem Raises.map (hx : Raises E x) (f : α → β) : Raises E (f <$> x) := by
  intro e he
  cases x with
  | ok a => cases he
  | error e' =>
      cases he
      exact hx _ rfl

/-- A list of computations faults with one of their faults. -/
theorem raises_mapM {f : β → Except ε α} {xs : List β} (h : ∀ x ∈ xs, Raises E (f x)) :
    Raises E (xs.mapM f) := by
  induction xs with
  | nil => exact raises_ok []
  | cons x xs ih =>
      rw [List.forall_mem_cons] at h
      rw [List.mapM_cons]
      exact raises_bind h.1 fun y _ => raises_bind (ih h.2) fun ys _ => raises_ok _

end Result

namespace Step

variable {ε σ α β : Type} {I : σ → Prop} {E : ε → Prop} {P : α → Prop} {Q : β → Prop}

/-- From `s` the step comes to a state in `I` and a result in `P`, or it raises a fault in `E`. -/
def EndsAt (I : σ → Prop) (E : ε → Prop) (P : α → Prop) (x : EStateM ε σ α) (s : σ) : Prop :=
  match x s with
  | .ok a t => I t ∧ P a
  | .error e _ => E e

/-- So the step ends from every state in `I`. -/
def Ends (I : σ → Prop) (E : ε → Prop) (P : α → Prop) (x : EStateM ε σ α) : Prop :=
  ∀ s, I s → EndsAt I E P x s

section

variable {x : EStateM ε σ α} {f : α → EStateM ε σ β} {s t : σ}

theorem endsAt_of_ok {a : α} (hx : x s = .ok a t) (ht : I t) (ha : P a) : EndsAt I E P x s := by
  rw [EndsAt, hx]
  exact ⟨ht, ha⟩

theorem endsAt_of_error {e : ε} (hx : x s = .error e t) (he : E e) : EndsAt I E P x s := by
  rw [EndsAt, hx]
  exact he

theorem endsAt_pure {a : α} (hs : I s) (h : P a) : EndsAt I E P (pure a : EStateM ε σ α) s :=
  ⟨hs, h⟩

theorem EndsAt.ok {a : α} (h : EndsAt I E P x s) (hx : x s = .ok a t) : I t ∧ P a := by
  rw [EndsAt, hx] at h
  exact h

theorem EndsAt.error {e : ε} (h : EndsAt I E P x s) (hx : x s = .error e t) : E e := by
  rw [EndsAt, hx] at h
  exact h

theorem EndsAt.mono {F : ε → Prop} {P' : α → Prop} (h : EndsAt I E P x s) (hE : ∀ e, E e → F e)
    (hP : ∀ a, P a → P' a) : EndsAt I F P' x s := by
  cases hx : x s with
  | ok a t => exact endsAt_of_ok hx (h.ok hx).1 (hP a (h.ok hx).2)
  | error e t => exact endsAt_of_error hx (hE e (h.error hx))

theorem Ends.mono {F : ε → Prop} {P' : α → Prop} (h : Ends I E P x) (hE : ∀ e, E e → F e)
    (hP : ∀ a, P a → P' a) : Ends I F P' x :=
  fun s hs => (h s hs).mono hE hP

/-- Whatever the results are. -/
theorem Ends.forget (h : Ends I E P x) : Ends I E (fun _ => True) x :=
  h.mono (fun _ he => he) fun _ _ => trivial

/-- A step followed by another from a given state. Of the second only those runs matter that the
first leads to. -/
theorem endsAt_bind (hx : EndsAt I E P x s)
    (hf : ∀ a t, x s = .ok a t → I t → P a → EndsAt I E Q (f a) t) :
    EndsAt I E Q (x >>= f) s := by
  cases hxs : x s with
  | ok a t =>
      rw [EndsAt, bind_apply_ok hxs]
      exact hf a t hxs (hx.ok hxs).1 (hx.ok hxs).2
  | error e t => exact endsAt_of_error (bind_eq_error.mpr (.inl hxs)) (hx.error hxs)

theorem Ends.bind (hx : Ends I E P x) (hf : ∀ a, P a → Ends I E Q (f a)) :
    Ends I E Q (x >>= f) :=
  fun s hs => endsAt_bind (hx s hs) fun a t _ ht ha => hf a ha t ht

theorem ends_pure {a : α} (h : P a) : Ends I E P (pure a : EStateM ε σ α) :=
  fun _ hs => endsAt_pure hs h

theorem ends_throw {e : ε} (h : E e) : Ends I E P (throw e : EStateM ε σ α) := fun _ _ => h

theorem ends_get : Ends I E I (get : EStateM ε σ σ) := fun _ hs => ⟨hs, hs⟩

theorem ends_modify {g : σ → σ} (h : ∀ s, I s → I (g s)) :
    Ends I E (fun _ => True) (modify g : EStateM ε σ PUnit) :=
  fun s hs => ⟨h s hs, trivial⟩

end

theorem ends_settle {E : Fault → Prop} {x : Except Fault α} (hE : Result.Raises E x)
    (hP : ∀ a, x = .ok a → P a) : Ends I E P (settle x : EStateM Fault σ α) := by
  cases x with
  | ok a => exact ends_pure (hP a rfl)
  | error fault => exact ends_throw (hE fault rfl)

end Step

end OnePassSql

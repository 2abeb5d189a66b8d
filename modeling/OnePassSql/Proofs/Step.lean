import Mathlib.Order.Defs.Unbundled
import OnePassSql.Statement.Clause

/-!
Steps on a state that can fault, seen from outside: where a step ends and what it gives. Facts about
a step are put together from those about its parts, along `>>=`.
-/

namespace OnePassSql.Step

variable {ε σ α β : Type}

/-! ## Taking a step apart -/

@[simp] theorem bind_eq_ok {x : EStateM ε σ α} {f : α → EStateM ε σ β} {s u : σ} {b : β} :
    (x >>= f) s = .ok b u ↔ ∃ a t, x s = .ok a t ∧ f a t = .ok b u := by
  change EStateM.bind x f s = _ ↔ _
  cases h : x s with
  | ok a t => simp [EStateM.bind, h, and_assoc]
  | error e t => simp [EStateM.bind, h]

@[simp] theorem bind_eq_error {x : EStateM ε σ α} {f : α → EStateM ε σ β} {s u : σ} {e : ε} :
    (x >>= f) s = .error e u ↔ x s = .error e u ∨ ∃ a t, x s = .ok a t ∧ f a t = .error e u := by
  change EStateM.bind x f s = _ ↔ _
  cases h : x s with
  | ok a t => simp [EStateM.bind, h, and_assoc]
  | error e t => simp [EStateM.bind, h]

theorem bind_apply_ok {x : EStateM ε σ α} {s t : σ} {a : α} (h : x s = .ok a t)
    (f : α → EStateM ε σ β) : (x >>= f) s = f a t := by
  change EStateM.bind x f s = _
  simp [EStateM.bind, h]

@[simp] theorem pure_apply (a : α) (s : σ) : (pure a : EStateM ε σ α) s = .ok a s := rfl

@[simp] theorem throw_apply (e : ε) (s : σ) : (throw e : EStateM ε σ α) s = .error e s := rfl

@[simp] theorem get_apply (s : σ) : (get : EStateM ε σ σ) s = .ok s s := rfl

@[simp] theorem modify_apply (f : σ → σ) (s : σ) :
    (modify f : EStateM ε σ PUnit) s = .ok ⟨⟩ (f s) := rfl

@[simp] theorem settle_ok_apply (a : α) (s : σ) : settle (.ok a) s = .ok a s := rfl

@[simp] theorem settle_error_apply (f : Fault) (s : σ) :
    settle (.error f : Except Fault α) s = .error f s := rfl

theorem settle_eq_ok {x : Except Fault α} {s t : σ} {a : α} :
    settle x s = .ok a t ↔ x = .ok a ∧ s = t := by
  cases x <;> simp

/-- Two runs are the same if they start the same and agree wherever that leads. -/
theorem bind_congr {x y : EStateM ε σ α} {f g : α → EStateM ε σ β} {s : σ} (hxy : x s = y s)
    (h : ∀ a t, x s = .ok a t → f a t = g a t) : (x >>= f) s = (y >>= g) s := by
  change EStateM.bind x f s = EStateM.bind y g s
  unfold EStateM.bind
  rw [← hxy]
  cases hx : x s with
  | ok a t => exact h a t hx
  | error e t => rfl

/-! ## Where a step ends -/

/-- The state that a step ends in, with or without a fault. -/
def stateAfter (x : EStateM ε σ α) (s : σ) : σ :=
  match x s with
  | .ok _ t => t
  | .error _ t => t

/-- Every run of the step moves the state along the relation, also one that faults. -/
def Respects (R : σ → σ → Prop) (x : EStateM ε σ α) : Prop := ∀ s, R s (stateAfter x s)

/-- Every run of the step that faults moves the state along the relation. -/
def FaultsWithin (R : σ → σ → Prop) (x : EStateM ε σ α) : Prop :=
  ∀ s e t, x s = .error e t → R s t

theorem stateAfter_of_ok {x : EStateM ε σ α} {s t : σ} {a : α} (h : x s = .ok a t) :
    stateAfter x s = t := by
  simp [stateAfter, h]

theorem stateAfter_of_error {x : EStateM ε σ α} {s t : σ} {e : ε} (h : x s = .error e t) :
    stateAfter x s = t := by
  simp [stateAfter, h]

theorem eq_ok_of_run' {x : EStateM ε σ α} {s : σ} {a : α} (h : x.run' s = some a) :
    x s = .ok a (stateAfter x s) := by
  unfold EStateM.run' EStateM.run at h
  unfold stateAfter
  cases hx : x s with
  | ok b t =>
      rw [hx] at h
      cases h
      rfl
  | error e t =>
      rw [hx] at h
      cases h

theorem stateAfter_bind_of_ok {x : EStateM ε σ α} {s t : σ} {a : α} (h : x s = .ok a t)
    (f : α → EStateM ε σ β) : stateAfter (x >>= f) s = stateAfter (f a) t := by
  simp only [stateAfter, bind_apply_ok h]

theorem stateAfter_bind_of_error {x : EStateM ε σ α} {s t : σ} {e : ε} (h : x s = .error e t)
    (f : α → EStateM ε σ β) : stateAfter (x >>= f) s = t :=
  stateAfter_of_error (bind_eq_error.mpr (.inl h))

section

variable {R S : σ → σ → Prop} {x : EStateM ε σ α} {f : α → EStateM ε σ β}

theorem Respects.ok (hx : Respects R x) {s t : σ} {a : α} (h : x s = .ok a t) : R s t :=
  stateAfter_of_ok h ▸ hx s

theorem Respects.error (hx : Respects R x) {s t : σ} {e : ε} (h : x s = .error e t) : R s t :=
  stateAfter_of_error h ▸ hx s

theorem Respects.faultsWithin (hx : Respects R x) : FaultsWithin R x := fun _ _ _ h => hx.error h

theorem Respects.mono (hx : Respects R x) (h : ∀ s t, R s t → S s t) : Respects S x :=
  fun s => h s _ (hx s)

theorem respects_modify {g : σ → σ} (h : ∀ s, R s (g s)) :
    Respects R (modify g : EStateM ε σ PUnit) := h

theorem faultsWithin_modify {g : σ → σ} : FaultsWithin R (modify g : EStateM ε σ PUnit) := by
  intro s e t hs
  simp at hs

variable [IsPreorder σ R]

theorem respects_pure (a : α) : Respects R (pure a : EStateM ε σ α) := fun s => refl s

theorem respects_throw (e : ε) : Respects R (throw e : EStateM ε σ α) := fun s => refl s

theorem respects_get : Respects R (get : EStateM ε σ σ) := fun s => refl s

theorem respects_settle {R : σ → σ → Prop} [IsPreorder σ R] (x : Except Fault α) :
    Respects R (settle x) := by
  cases x with
  | ok a => exact respects_pure a
  | error fault => exact respects_throw fault

/-- A step followed by another from a given state. Of the second only those runs matter that the
first leads to. -/
theorem respects_bind_at {s : σ} (hx : R s (stateAfter x s))
    (hf : ∀ a t, x s = .ok a t → R t (stateAfter (f a) t)) :
    R s (stateAfter (x >>= f) s) := by
  cases hs : x s with
  | ok a t =>
      have ht : R s t := stateAfter_of_ok hs ▸ hx
      rw [stateAfter_bind_of_ok hs]
      exact IsTrans.trans _ _ _ ht (hf a t hs)
  | error e t =>
      rw [stateAfter_bind_of_error hs]
      exact stateAfter_of_error hs ▸ hx

theorem Respects.bind (hx : Respects R x) (hf : ∀ a, Respects R (f a)) : Respects R (x >>= f) :=
  fun s => respects_bind_at (hx s) fun a t _ => hf a t

/-- A step faults within the relation if all its parts keep to it but the last, which only has to
where it faults. -/
theorem Respects.bind_faultsWithin (hx : Respects R x) (hf : ∀ a, FaultsWithin R (f a)) :
    FaultsWithin R (x >>= f) := by
  intro s e u h
  rcases bind_eq_error.mp h with hs | ⟨a, t, hs, ht⟩
  · exact hx.error hs
  · exact IsTrans.trans _ _ _ (hx.ok hs) (hf a _ _ _ ht)

end

/-- What follows a step and cannot fault adds no fault. -/
theorem FaultsWithin.bind_pure {R : σ → σ → Prop} {x : EStateM ε σ α} (hx : FaultsWithin R x)
    (g : α → β) : FaultsWithin R (x >>= fun a => pure (g a)) := by
  intro s e u h
  rcases bind_eq_error.mp h with hs | ⟨a, t, hs, ht⟩
  · exact hx _ _ _ hs
  · simp at ht

/-! ## What a step gives -/

/-- Every result of the step has the property. -/
def Yields (P : α → Prop) (x : EStateM ε σ α) : Prop := ∀ s a t, x s = .ok a t → P a

section

variable {P : α → Prop} {Q : β → Prop} {x : EStateM ε σ α} {f : α → EStateM ε σ β}

theorem yields_pure {a : α} (h : P a) : Yields P (pure a : EStateM ε σ α) := by
  intro s b t hs
  cases hs
  exact h

theorem yields_throw (e : ε) : Yields P (throw e : EStateM ε σ α) := by
  intro s a t hs
  cases hs

theorem yields_settle {x : Except Fault α} (h : ∀ a, x = .ok a → P a) :
    Yields P (settle x : EStateM Fault σ α) := by
  intro s a t hs
  exact h a (settle_eq_ok.mp hs).1

theorem Yields.bind (hx : Yields P x) (hf : ∀ a, P a → Yields Q (f a)) : Yields Q (x >>= f) := by
  intro s b u h
  obtain ⟨a, t, hs, ht⟩ := bind_eq_ok.mp h
  exact hf a (hx s a t hs) t b u ht

theorem yields_bind (hf : ∀ a, Yields Q (f a)) : Yields Q (x >>= f) := by
  intro s b u h
  obtain ⟨a, t, -, ht⟩ := bind_eq_ok.mp h
  exact hf a t b u ht

end

end OnePassSql.Step

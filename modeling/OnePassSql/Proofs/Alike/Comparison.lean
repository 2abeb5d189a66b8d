import OnePassSql.Proofs.Parser.Progress

/-!
Two runs compared, step by step. The second run is followed as long as the first one stays within
the tokens that both have in common; what the first does beyond them says nothing.
-/

namespace OnePassSql

/-- The fault without its position and without the statement that it was found in. -/
def Fault.withoutPlace : Fault → Fault
  | lexical ch _ => lexical ch 0
  | parse problem _ => parse problem 0
  | misread problem _ _ => misread problem 0 ""
  | refused problem _ => refused problem ""
  | fault => fault

namespace TokenStream

theorem ending_ne_token (s : TokenStream) (first : Token) (rest : TokenStream) :
    s.ending ≠ .token first rest := by
  induction s with
  | token _ _ ih => exact ih
  | done n => exact nofun
  | fault ch n => exact nofun

/-- Who has come somewhere on the way to an ending comes to the ending. -/
theorem LeadsTo.to_ending {s t u : TokenStream} (h : s.LeadsTo t) (hu : u.ending = u)
    (hs : s.LeadsTo u) : t.LeadsTo u := by
  induction h with
  | refl s => exact hs
  | token first _ ih =>
      cases hs with
      | refl => exact absurd hu (ending_ne_token _ _ _)
      | token _ hrest => exact ih hrest

end TokenStream

namespace Step

variable {σ α β γ δ : Type}

/-- What is compared of two runs: which states go with each other, where the common tokens end for
the first run, and which faults of the first run are to be found in the second as well. That is
asked only if nothing can follow the common tokens. -/
structure Comparison (σ : Type) where
  ahead : σ → TokenStream
  last : TokenStream
  alike : σ → σ → Prop
  shows : Fault → Prop
  afterFault : σ → σ → Prop
  leadsTo_last {s s' : σ} : alike s s' → (ahead s).LeadsTo last
  last_ends {e : Fault} : shows e → last.ending = last
  afterFault_of_alike {s s' : σ} : alike s s' → afterFault s s'

namespace Comparison

variable {C : Comparison σ}

/-- Only tokens were taken. -/
def MovesTo (C : Comparison σ) (s t : σ) : Prop := (C.ahead s).LeadsTo (C.ahead t)

/-- The state has not gone beyond the common tokens. -/
def InView (C : Comparison σ) (s : σ) : Prop := (C.ahead s).LeadsTo C.last

instance : IsPreorder σ C.MovesTo where
  refl s := .refl (C.ahead s)
  trans _ _ _ hst htu := TokenStream.LeadsTo.trans hst htu

theorem InView.of_movesTo {s t : σ} (ht : C.InView t) (h : C.MovesTo s t) : C.InView s :=
  TokenStream.LeadsTo.trans h ht

/-- Where the first text ends, nothing is beyond the common tokens. -/
theorem InView.movesTo (hlast : C.last.ending = C.last) {s t : σ} (hs : C.InView s)
    (h : C.MovesTo s t) : C.InView t :=
  TokenStream.LeadsTo.to_ending h hlast hs

theorem inView_of_ends (hlast : C.last.ending = C.last) {s s' t : σ} (hs : C.alike s s')
    (h : C.MovesTo s t) : C.InView t :=
  InView.movesTo hlast (C.leadsTo_last hs) h

end Comparison

variable {C : Comparison σ} {V : α → β → Prop} {W : γ → δ → Prop}

/-- The second result is one that goes with the first. -/
def Follows (C : Comparison σ) (V : α → β → Prop) (r : EStateM.Result Fault σ α)
    (r' : EStateM.Result Fault σ β) : Prop :=
  match r with
  | .ok a t => C.InView t → ∃ b t', r' = .ok b t' ∧ V a b ∧ C.alike t t'
  | .error e t => C.shows e →
      ∃ e' t', r' = .error e' t' ∧ e.withoutPlace = e'.withoutPlace ∧ C.afterFault t t'

/-- From states that go with each other the two steps run to results that do. -/
structure RunsAlike (C : Comparison σ) (V : α → β → Prop) (x : EStateM Fault σ α)
    (y : EStateM Fault σ β) : Prop where
  moves : Respects C.MovesTo x
  follows {s s' : σ} : C.alike s s' → Follows C V (x s) (y s')

section

variable {s s' t : σ} {x : EStateM Fault σ α} {y : EStateM Fault σ β}

theorem Follows.ok {a : α} (h : Follows C V (x s) (y s')) (hx : x s = .ok a t) (ht : C.InView t) :
    ∃ b t', y s' = .ok b t' ∧ V a b ∧ C.alike t t' := by
  rw [hx] at h
  exact h ht

theorem Follows.error {e : Fault} (h : Follows C V (x s) (y s')) (hx : x s = .error e t)
    (hshow : C.shows e) :
    ∃ e' t', y s' = .error e' t' ∧ e.withoutPlace = e'.withoutPlace ∧ C.afterFault t t' := by
  rw [hx] at h
  exact h hshow

theorem follows_pure {a : α} {b : β} (hs : C.alike s s') (h : V a b) :
    Follows C V ((pure a : EStateM Fault σ α) s) ((pure b : EStateM Fault σ β) s') :=
  fun _ => ⟨b, s', rfl, h, hs⟩

theorem follows_throw {e e' : Fault} (hs : C.alike s s') (h : e.withoutPlace = e'.withoutPlace) :
    Follows C V ((throw e : EStateM Fault σ α) s) ((throw e' : EStateM Fault σ β) s') :=
  fun _ => ⟨e', s', rfl, h, C.afterFault_of_alike hs⟩

/-- Of the second steps only those runs matter that the first ones lead to. It does not matter what
the first steps start from. -/
theorem follows_bind_of_inView {f : α → EStateM Fault σ γ} {g : β → EStateM Fault σ δ}
    (hs : C.InView s) (hmove : C.MovesTo s (stateAfter x s)) (hx : Follows C V (x s) (y s'))
    (hmoves : ∀ a t, x s = .ok a t → C.MovesTo t (stateAfter (f a) t))
    (hf : ∀ a t b t', x s = .ok a t → y s' = .ok b t' → V a b → C.alike t t' →
      Follows C W (f a t) (g b t')) :
    Follows C W ((x >>= f) s) ((y >>= g) s') := by
  cases hxs : x s with
  | error e t =>
      have hbind : (x >>= f) s = .error e t := bind_eq_error.mpr (.inl hxs)
      rw [hbind]
      intro hshow
      obtain ⟨e', t', hy, hsame, hafter⟩ := hx.error hxs hshow
      exact ⟨e', t', bind_eq_error.mpr (.inl hy), hsame, hafter⟩
  | ok a t =>
      have hthen : C.InView t → Follows C W (f a t) ((y >>= g) s') := by
        intro ht
        obtain ⟨b, t', hy, hV, halike⟩ := hx.ok hxs ht
        rw [bind_apply_ok hy]
        exact hf a t b t' hxs hy hV halike
      have hmove' := hmoves a t hxs
      rw [stateAfter_of_ok hxs] at hmove
      rw [bind_apply_ok hxs]
      cases hfa : f a t with
      | ok c w =>
          intro hw
          rw [stateAfter_of_ok hfa] at hmove'
          exact (hthen (hw.of_movesTo hmove')).ok hfa hw
      | error e w =>
          intro hshow
          exact (hthen (hs.movesTo (C.last_ends hshow) hmove)).error hfa hshow

theorem follows_bind_at {f : α → EStateM Fault σ γ} {g : β → EStateM Fault σ δ}
    (hs : C.alike s s') (hmove : C.MovesTo s (stateAfter x s)) (hx : Follows C V (x s) (y s'))
    (hmoves : ∀ a t, x s = .ok a t → C.MovesTo t (stateAfter (f a) t))
    (hf : ∀ a t b t', x s = .ok a t → y s' = .ok b t' → V a b → C.alike t t' →
      Follows C W (f a t) (g b t')) :
    Follows C W ((x >>= f) s) ((y >>= g) s') :=
  follows_bind_of_inView (C.leadsTo_last hs) hmove hx hmoves hf

theorem follows_bind {f : α → EStateM Fault σ γ} {g : β → EStateM Fault σ δ} (hs : C.alike s s')
    (hx : RunsAlike C V x y) (hmoves : ∀ a t, x s = .ok a t → C.MovesTo t (stateAfter (f a) t))
    (hf : ∀ a t b t', x s = .ok a t → y s' = .ok b t' → V a b → C.alike t t' →
      Follows C W (f a t) (g b t')) :
    Follows C W ((x >>= f) s) ((y >>= g) s') :=
  follows_bind_at hs (hx.moves s) (hx.follows hs) hmoves hf

end

variable {x : EStateM Fault σ α} {y : EStateM Fault σ β}

theorem runsAlike_pure {a : α} {b : β} (h : V a b) :
    RunsAlike C V (pure a : EStateM Fault σ α) (pure b : EStateM Fault σ β) :=
  ⟨respects_pure a, fun hs => follows_pure hs h⟩

theorem runsAlike_throw {e e' : Fault} (h : e.withoutPlace = e'.withoutPlace) :
    RunsAlike C V (throw e : EStateM Fault σ α) (throw e' : EStateM Fault σ β) :=
  ⟨respects_throw e, fun hs => follows_throw hs h⟩

/-- What follows two steps with related values. Every value has one that it is related to, so the
first run takes only tokens whatever the value is. -/
theorem RunsAlike.bind_of_total {f : α → EStateM Fault σ γ} {g : β → EStateM Fault σ δ}
    (htotal : ∀ a, ∃ b, V a b) (hx : RunsAlike C V x y)
    (hf : ∀ a b, V a b → RunsAlike C W (f a) (g b)) : RunsAlike C W (x >>= f) (y >>= g) := by
  have hmoves : ∀ a, Respects C.MovesTo (f a) := by
    intro a
    obtain ⟨b, hV⟩ := htotal a
    exact (hf a b hV).moves
  exact ⟨hx.moves.bind hmoves, fun hs => follows_bind hs hx (fun a t _ => hmoves a t)
    fun a _ b _ _ _ hV halike => (hf a b hV).follows halike⟩

theorem RunsAlike.bind {y : EStateM Fault σ α} {f : α → EStateM Fault σ γ}
    {g : α → EStateM Fault σ δ} (hx : RunsAlike C Eq x y)
    (hf : ∀ a, RunsAlike C W (f a) (g a)) : RunsAlike C W (x >>= f) (y >>= g) :=
  hx.bind_of_total (fun a => ⟨a, rfl⟩) fun a _ h => h ▸ hf a

theorem RunsAlike.map {y : EStateM Fault σ α} (hx : RunsAlike C Eq x y) (g : α → γ) :
    RunsAlike C Eq (g <$> x) (g <$> y) := by
  rw [map_eq_pure_bind, map_eq_pure_bind]
  exact hx.bind fun a => runsAlike_pure rfl

theorem runsAlike_settle (x : Except Fault α) :
    RunsAlike C Eq (settle x : EStateM Fault σ α) (settle x) := by
  cases x with
  | ok a => exact runsAlike_pure rfl
  | error fault => exact runsAlike_throw rfl

/-- The loop on a budget that is taken from the state. -/
def onBudget (start : σ → Nat) (loop : Nat → EStateM Fault σ α) : EStateM Fault σ α :=
  fun s => loop (start s) s

/-- A loop that runs alike on every budget does so on a budget that each run takes from its own
state, if every two budgets that are enough for a state give the same run. -/
theorem runsAlike_onBudget {V : α → α → Prop} {loop : Nat → EStateM Fault σ α} {enough : σ → Nat}
    (hfree : ∀ b s other, enough s ≤ b → enough s ≤ other → loop b s = loop other s)
    (halike : ∀ b, RunsAlike C V (loop b) (loop b)) {start : σ → Nat}
    (hstart : ∀ s, enough s ≤ start s) :
    RunsAlike C V (onBudget start loop) (onBudget start loop) := by
  refine ⟨fun s => (halike (start s)).moves s, fun {s s'} hs => ?_⟩
  let common := max (start s) (start s')
  have hfirst : onBudget start loop s = loop common s :=
    hfree _ s common (hstart s) (Nat.le_trans (hstart s) (Nat.le_max_left _ _))
  have hsecond : onBudget start loop s' = loop common s' :=
    hfree _ s' common (hstart s') (Nat.le_trans (hstart s') (Nat.le_max_right _ _))
  rw [hfirst, hsecond]
  exact (halike common).follows hs

end Step

end OnePassSql

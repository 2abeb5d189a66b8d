import OnePassSql.Proofs.Outcome

/-!
Loops that go round. A round ends with a result, or it asks for another one and then leaves less
ahead than it found. So from every state a loop comes to its end, after at most one round more than
there is ahead, and a budget that is taken from what is ahead does not show.
-/

namespace OnePassSql

/-- What a round of a loop comes to: another round, or the result of the loop. -/
inductive Turn (β α : Type) where
  | again (next : β)
  | last (result : α)

/-- What a round costs at least: one if it asks for another. -/
def Turn.cost {β α : Type} : Turn β α → Nat
  | .again _ => 1
  | .last _ => 0

theorem Turn.cost_le_one {β α : Type} (turn : Turn β α) : turn.cost ≤ 1 := by
  cases turn with
  | again next => exact Nat.le_refl _
  | last result => exact Nat.zero_le _

namespace Step

variable {ε σ α β : Type}

/-! ## What a step spends -/

/-- If the step gives `a`, it leaves at least `need a` less ahead. -/
def Spends (size : σ → Nat) (need : α → Nat) (x : EStateM ε σ α) : Prop :=
  ∀ s a t, x s = .ok a t → size t + need a ≤ size s

section

variable {size : σ → Nat} {need : α → Nat} {x : EStateM ε σ α}

theorem Spends.mono {need' : α → Nat} (h : Spends size need x) (hneed : ∀ a, need' a ≤ need a) :
    Spends size need' x :=
  fun s a t hs => Nat.le_trans (Nat.add_le_add_left (hneed a) _) (h s a t hs)

/-- What the first part has spent, the second one need not. -/
theorem Spends.bind {need' : β → Nat} {f : α → EStateM ε σ β} (hx : Spends size need x)
    (hf : ∀ a, Spends size (fun b => need' b - need a) (f a)) : Spends size need' (x >>= f) := by
  intro s b u h
  obtain ⟨a, t, hs, ht⟩ := bind_eq_ok.mp h
  have hfirst := hx s a t hs
  have hrest : size u + (need' b - need a) ≤ size t := hf a t b u ht
  omega

theorem spends_pure {a : α} (h : need a = 0) : Spends size need (pure a : EStateM ε σ α) := by
  rintro s _ _ ⟨⟩
  rw [h]
  exact Nat.le_refl _

theorem spends_throw (e : ε) : Spends size need (throw e : EStateM ε σ α) := nofun

theorem spends_get {need : σ → Nat} (h : ∀ s, need s = 0) :
    Spends size need (get : EStateM ε σ σ) := by
  rintro s _ _ ⟨⟩
  rw [h]
  exact Nat.le_refl _

end

/-! ## Budgets that do not run out -/

/-- From the state the step comes to a result or to a fault of its own: no budget runs out. -/
abbrev LastsAt (x : EStateM Fault σ α) (s : σ) : Prop :=
  EndsAt (fun _ => True) (· ≠ .exhausted) (fun _ => True) x s

/-- So it does from every state. -/
abbrev Lasts (x : EStateM Fault σ α) : Prop :=
  Ends (fun _ => True) (· ≠ .exhausted) (fun _ => True) x

theorem lastsAt_iff {x : EStateM Fault σ α} {s : σ} :
    LastsAt x s ↔ ∀ t, x s ≠ .error .exhausted t := by
  constructor
  · exact fun h t hs => h.error hs rfl
  · intro h
    cases hs : x s with
    | ok a t => exact endsAt_of_ok hs trivial trivial
    | error e t =>
        refine endsAt_of_error hs ?_
        rintro rfl
        exact h t hs

theorem lasts_iff {x : EStateM Fault σ α} : Lasts x ↔ ∀ s t, x s ≠ .error .exhausted t :=
  ⟨fun h s => lastsAt_iff.mp (h s trivial), fun h s _ => lastsAt_iff.mpr (h s)⟩

/-- A step that faults with something else has no budget that runs out. -/
theorem EndsAt.lasts {I : σ → Prop} {E : Fault → Prop} {P : α → Prop} {x : EStateM Fault σ α}
    {s : σ} (h : EndsAt I E P x s) (hE : ¬E .exhausted) : LastsAt x s :=
  lastsAt_iff.mpr fun _ hs => hE (h.error hs)

theorem Lasts.bind {x : EStateM Fault σ α} {f : α → EStateM Fault σ β} (hx : Lasts x)
    (hf : ∀ a, Lasts (f a)) : Lasts (x >>= f) :=
  Ends.bind hx fun a _ => hf a

theorem lasts_pure (a : α) : Lasts (pure a : EStateM Fault σ α) := ends_pure trivial

theorem lasts_throw {e : Fault} (h : e ≠ .exhausted) : Lasts (throw e : EStateM Fault σ α) :=
  ends_throw h

theorem lasts_get : Lasts (get : EStateM Fault σ σ) := fun _ _ => ⟨trivial, trivial⟩

/-! ## Rounds -/

/-- What follows a round. -/
def goOn (loop : β → EStateM ε σ α) : Turn β α → EStateM ε σ α
  | .again next => loop next
  | .last result => pure result

/-- Makes round after round until one has the result, at most `budget` of them. -/
def rounds (round : β → EStateM Fault σ (Turn β α)) : Nat → β → EStateM Fault σ α
  | 0, _ => throw .exhausted
  | budget + 1, b => round b >>= goOn (rounds round budget)

/-- The loop goes round and ends: a round that asks for another one leaves less ahead, and on every
budget of at least `factor` times what is ahead and `extra` the loop is at most one round more than
there is ahead, and does not run out of its budget. -/
structure GoesRound (size : σ → Nat) (round : β → EStateM Fault σ (Turn β α))
    (loop : Nat → β → EStateM Fault σ α) (factor extra : Nat) : Prop where
  progress (b : β) : Spends size Turn.cost (round b)
  lasts (b : β) : Lasts (round b)
  ends (budget : Nat) (b : β) (s : σ) : factor * size s + extra ≤ budget →
    loop budget b s = rounds round (size s + 1) b s

section

variable {size : σ → Nat} {round : β → EStateM Fault σ (Turn β α)}
  {loop : Nat → β → EStateM Fault σ α} {factor extra : Nat}

/-- A round that asked for another one left less ahead. -/
theorem size_lt_of_again (h : ∀ b, Spends size Turn.cost (round b)) {b next : β} {s t : σ}
    (hs : round b s = .ok (.again next) t) : size t < size s :=
  h b s _ t hs

/-- Two budgets for more rounds than there is ahead give the same run. -/
theorem rounds_congr (h : ∀ b, Spends size Turn.cost (round b)) {budget other : Nat} {b : β}
    {s : σ} (hbudget : size s < budget) (hother : size s < other) :
    rounds round budget b s = rounds round other b s := by
  induction budget generalizing other b s with
  | zero => omega
  | succ budget ih =>
      obtain ⟨other, rfl⟩ : ∃ n, other = n + 1 := ⟨other - 1, by omega⟩
      refine bind_congr rfl fun turn t ht => ?_
      cases turn with
      | last a => rfl
      | again next =>
          have hlt := size_lt_of_again h ht
          exact ih (by omega) (by omega)

/-- A budget for more rounds than there is ahead does not run out. -/
theorem rounds_ne_exhausted (hprogress : ∀ b, Spends size Turn.cost (round b))
    (hlasts : ∀ b, Lasts (round b)) {budget : Nat} {b : β} {s : σ} (hbudget : size s < budget)
    (t : σ) : rounds round budget b s ≠ .error .exhausted t := by
  induction budget generalizing b s with
  | zero => omega
  | succ budget ih =>
      intro h
      rcases bind_eq_error.mp h with hround | ⟨turn, u, hround, hrest⟩
      · exact lasts_iff.mp (hlasts b) s t hround
      · cases turn with
        | last a => cases hrest
        | again next =>
            have hlt := size_lt_of_again hprogress hround
            exact ih (by omega) hrest

theorem GoesRound.congr (h : GoesRound size round loop factor extra) {budget other : Nat} {b : β}
    {s : σ} (hbudget : factor * size s + extra ≤ budget)
    (hother : factor * size s + extra ≤ other) : loop budget b s = loop other b s :=
  (h.ends budget b s hbudget).trans (h.ends other b s hother).symm

theorem GoesRound.ne_exhausted (h : GoesRound size round loop factor extra) {budget : Nat} {b : β}
    {s : σ} (hbudget : factor * size s + extra ≤ budget) (t : σ) :
    loop budget b s ≠ .error .exhausted t := by
  rw [h.ends budget b s hbudget]
  exact rounds_ne_exhausted h.progress h.lasts (Nat.lt_succ_self _) t

/-- A loop that makes a round, and goes on with one budget less, goes round. -/
theorem goesRound_of_succ (hfactor : 0 < factor) (hextra : 0 < extra)
    (hprogress : ∀ b, Spends size Turn.cost (round b)) (hlasts : ∀ b, Lasts (round b))
    (hsucc : ∀ budget b s, factor * size s + extra ≤ budget + 1 →
      loop (budget + 1) b s = (round b >>= goOn (loop budget)) s) :
    GoesRound size round loop factor extra := by
  refine ⟨hprogress, hlasts, fun budget => ?_⟩
  induction budget with
  | zero => omega
  | succ budget ih =>
      intro b s hbudget
      rw [hsucc budget b s hbudget]
      refine bind_congr rfl fun turn t ht => ?_
      cases turn with
      | last a => rfl
      | again next =>
          -- the round has left room for `factor` more steps than the budget has lost
          have hlt := size_lt_of_again hprogress ht
          have hless : factor * (size t + 1) ≤ factor * size s := Nat.mul_le_mul_left factor hlt
          rw [Nat.mul_succ] at hless
          exact (ih next t (by omega)).trans (rounds_congr hprogress (Nat.lt_succ_self _) hlt)

/-- The rounds of a loop are a loop, with the number of rounds for a budget. -/
theorem GoesRound.rounds (h : GoesRound size round loop factor extra) :
    GoesRound size round (rounds round) 1 1 :=
  goesRound_of_succ Nat.one_pos Nat.one_pos h.progress h.lasts fun _ _ _ _ => rfl

end

/-! ## Ending in a text -/

/-- Wherever in the text it starts, the step has one run on all budgets from `limit` on, and in it
no budget runs out. -/
def EndsIn (text : σ → Prop) (limit : Nat) (step : Nat → EStateM Fault σ α) : Prop :=
  ∀ s, text s → ∃ r, (∀ t, r ≠ .error .exhausted t) ∧
    ∀ budget, limit ≤ budget → step budget s = r

/-- So it is with the loop, and that run is made of at most one round more than there is ahead,
since every round that asks for another one leaves less ahead. -/
structure LoopEndsIn (text : σ → Prop) (size : σ → Nat) (limit : Nat)
    (round : β → EStateM Fault σ (Turn β α)) (loop : Nat → β → EStateM Fault σ α) : Prop where
  progress (b next : β) (s t : σ) : text s → round b s = .ok (.again next) t → size t < size s
  ends (b : β) (s : σ) : text s → ∃ r, (∀ t, r ≠ .error .exhausted t) ∧
    rounds round (size s + 1) b s = r ∧ ∀ budget, limit ≤ budget → loop budget b s = r

/-- Also the last round of the loop leaves less ahead. -/
structure LoopTakesIn (text : σ → Prop) (size : σ → Nat) (limit : Nat)
    (round : β → EStateM Fault σ (Turn β α)) (loop : Nat → β → EStateM Fault σ α) : Prop
    extends LoopEndsIn text size limit round loop where
  takes (b : β) (turn : Turn β α) (s t : σ) : text s → round b s = .ok turn t → size t < size s

section

variable {text : σ → Prop} {size : σ → Nat} {limit n factor extra : Nat}
  {round : β → EStateM Fault σ (Turn β α)} {loop : Nat → β → EStateM Fault σ α}

theorem GoesRound.loopEndsIn (h : GoesRound size round loop factor extra)
    (hsize : ∀ s, text s → size s ≤ n) (hlimit : factor * n + extra ≤ limit) :
    LoopEndsIn text size limit round loop where
  progress _ _ _ _ _ hs := size_lt_of_again h.progress hs
  ends b s hs := by
    refine ⟨_, rounds_ne_exhausted h.progress h.lasts (Nat.lt_succ_self _), rfl,
      fun budget hbudget => h.ends budget b s ?_⟩
    have hle := Nat.mul_le_mul_left factor (hsize s hs)
    omega

theorem GoesRound.loopTakesIn (h : GoesRound size round loop factor extra)
    (htakes : ∀ b, Spends size (fun _ => 1) (round b)) (hsize : ∀ s, text s → size s ≤ n)
    (hlimit : factor * n + extra ≤ limit) : LoopTakesIn text size limit round loop where
  toLoopEndsIn := h.loopEndsIn hsize hlimit
  takes b turn s t _ hs := htakes b s turn t hs

end

/-- A step without a budget ends if none runs out inside it. -/
theorem Lasts.endsIn {x : EStateM Fault σ α} (h : Lasts x) (text : σ → Prop) (limit : Nat) :
    EndsIn text limit fun _ => x :=
  fun s _ => ⟨x s, lasts_iff.mp h s, fun _ _ => rfl⟩

end Step

end OnePassSql

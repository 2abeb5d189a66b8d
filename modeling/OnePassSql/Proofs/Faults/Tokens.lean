import OnePassSql.Proofs.Alike.Words
import OnePassSql.Proofs.Outcome

/-!
What reading tokens can fault with. A parser that is somewhere in a stream stays in it, and what it
finds wrong is a character that starts no token, or it stands at a place: where a token starts or
where the text ends.
-/

namespace OnePassSql

open Step

/-! ## Places -/

namespace TokenStream

/-- A token starts there, or the text ends there. -/
def IsPlace (s : TokenStream) (n : Nat) : Prop :=
  (∃ t ∈ s.toList, t.position = n) ∨ s.ending = .done n

/-- What can be wrong with a stream for who reads in it. -/
inductive ReadingFault (s : TokenStream) : Fault → Prop where
  | lexical {ch n} : s.ending = .fault ch n → ReadingFault s (.lexical ch n)
  | parse {problem n} : s.IsPlace n → ReadingFault s (.parse problem n)

variable {s t : TokenStream}

theorem LeadsTo.mem (h : s.LeadsTo t) {token : Token} (ht : token ∈ t.toList) :
    token ∈ s.toList := by
  induction h with
  | refl s => exact ht
  | token first _ ih => exact List.mem_cons_of_mem first (ih ht)

theorem LeadsTo.mem_of_token {first : Token} {rest : TokenStream}
    (h : s.LeadsTo (.token first rest)) : first ∈ s.toList :=
  h.mem List.mem_cons_self

theorem LeadsTo.behind {first : Token} {rest : TokenStream} (h : s.LeadsTo (.token first rest)) :
    s.LeadsTo rest :=
  h.trans (.token first (.refl rest))

theorem LeadsTo.isPlace_of_token {first : Token} {rest : TokenStream}
    (h : s.LeadsTo (.token first rest)) : s.IsPlace first.position :=
  .inl ⟨first, h.mem_of_token, rfl⟩

theorem LeadsTo.isPlace_of_done {n : Nat} (h : s.LeadsTo (.done n)) : s.IsPlace n :=
  .inr h.ending_eq

theorem LeadsTo.readingFault {ch : Char} {n : Nat} (h : s.LeadsTo (.fault ch n)) :
    s.ReadingFault (.lexical ch n) :=
  .lexical h.ending_eq

end TokenStream

/-- The parser is somewhere in the stream. -/
def Parser.Within (s : TokenStream) (p : Parser) : Prop := s.LeadsTo p.ahead

namespace Parse

variable {α β : Type} {s : TokenStream} {E : Fault → Prop} {P : α → Prop}

/-- Where no character stands in the way, the parser is at a place. -/
theorem isPlace_of_peek {p q : Parser} {t : Option Token} (hp : p.Within s)
    (h : peek p = .ok t q) : s.IsPlace p.position := by
  have hleads : s.LeadsTo p.ahead := hp
  rw [Parser.position]
  cases hahead : p.ahead with
  | token first rest => exact (hahead ▸ hleads).isPlace_of_token
  | done n => exact (hahead ▸ hleads).isPlace_of_done
  | fault ch n =>
      rw [peek_of_fault hahead] at h
      cases h

/-- Wherever the step starts in the stream, it stays in the stream, its results are in `P`, and it
faults only with what can be wrong with the stream. -/
abbrev ReadsIn (s : TokenStream) (P : α → Prop) (step : Parse α) : Prop :=
  Ends (Parser.Within s) s.ReadingFault P step

/-- A step that stays in every stream takes tokens only. -/
theorem length_le_of_ends {step : Parse α} {p q : Parser} {a : α}
    (h : Ends (Parser.Within p.ahead) E P step) (hs : step p = .ok a q) :
    q.ahead.length ≤ p.ahead.length :=
  TokenStream.LeadsTo.length_le ((h p (.refl p.ahead)).ok hs).1

/-! ## One token -/

theorem readsIn_peek : ReadsIn s (fun t => ∀ first, t = some first → first ∈ s.toList) peek := by
  intro p hp
  have hleads : s.LeadsTo p.ahead := hp
  cases hahead : p.ahead with
  | token first rest =>
      rw [hahead] at hleads
      refine endsAt_of_ok (peek_of_token hahead) hp fun first' h => ?_
      exact Option.some.inj h ▸ hleads.mem_of_token
  | done n => exact endsAt_of_ok (peek_of_done hahead) hp nofun
  | fault ch n =>
      rw [hahead] at hleads
      exact endsAt_of_error (peek_of_fault hahead) hleads.readingFault

theorem readsIn_skip : ReadsIn s (fun _ => True) skip :=
  ends_modify fun p hp => TokenStream.LeadsTo.trans hp p.ahead.leadsTo_tail

theorem readsIn_resume {ahead : TokenStream} (h : s.LeadsTo ahead) :
    ReadsIn s (fun _ => True) (resume ahead) :=
  ends_modify fun _ _ => h

theorem readsIn_isNext (words : List String) : ReadsIn s (fun _ => True) (isNext words) :=
  readsIn_peek.bind fun _ _ => ends_pure trivial

theorem readsIn_atEnd : ReadsIn s (fun _ => True) atEnd :=
  readsIn_peek.bind fun _ _ => ends_pure trivial

theorem readsIn_acceptOne? (options : List (String × α)) :
    ReadsIn s (fun found => ∀ a, found = some a → ∃ t ∈ s.toList, meaning? options t = some a)
      (acceptOne? options) := by
  refine readsIn_peek.bind fun t ht => ?_
  cases hmeaning : t.bind (meaning? options) with
  | none => exact ends_pure nofun
  | some a =>
      obtain ⟨first, hfirst, hfound⟩ := Option.bind_eq_some_iff.mp hmeaning
      refine readsIn_skip.bind fun _ _ => ends_pure fun a' ha => ?_
      exact ⟨first, ht first hfirst, Option.some.inj ha ▸ hfound⟩

theorem readsIn_accept (word : String) : ReadsIn s (fun _ => True) (accept word) :=
  (readsIn_acceptOne? _).bind fun _ _ => ends_pure trivial

theorem readsIn_acceptHolding? (fragments : List (String × α)) :
    ReadsIn s (fun _ => True) (acceptHolding? fragments) := by
  refine readsIn_peek.bind fun t _ => ?_
  dsimp only
  split
  · exact readsIn_skip.bind fun _ _ => ends_pure trivial
  · exact ends_pure trivial

/-! ## Tokens that have to be there -/

/-- The token that is taken stands at a place, and so does the end of the text where there is
none. -/
theorem readsIn_takeNext {make : Nat → Token → Except Fault α} {missing : Nat → Fault}
    (hfault : ∀ start t, s.IsPlace start → Result.Raises s.ReadingFault (make start t))
    (hmade : ∀ start t a, t ∈ s.toList → make start t = .ok a → P a)
    (hmissing : ∀ start, s.IsPlace start → s.ReadingFault (missing start)) :
    ReadsIn s P (takeNext make missing) := by
  intro p hp
  have hleads : s.LeadsTo p.ahead := hp
  cases hahead : p.ahead with
  | token first rest =>
      rw [hahead] at hleads
      rw [EndsAt, takeNext_of_token hahead]
      exact ends_settle (hfault _ first (isPlace_of_peek hp (peek_of_token hahead)))
        (fun a => hmade _ first a hleads.mem_of_token) _ hleads.behind
  | done n =>
      exact endsAt_of_error (takeNext_of_done hahead make missing)
        (hmissing _ (isPlace_of_peek hp (peek_of_done hahead)))
  | fault ch n =>
      rw [hahead] at hleads
      have hpeek := peek_of_fault hahead
      have htake : takeNext make missing p = .error (.lexical ch n) p :=
        bind_eq_error.mpr (.inr ⟨_, p, rfl,
          bind_eq_error.mpr (.inl (bind_eq_error.mpr (.inl hpeek)))⟩)
      exact endsAt_of_error htake hleads.readingFault

theorem readsIn_expectOne (options : List (String × α)) :
    ReadsIn s (fun a => ∃ t ∈ s.toList, meaning? options t = some a) (expectOne options) := by
  rw [expectOne_eq_takeNext]
  refine readsIn_takeNext (fun start t hstart => ?_) (fun start t a ht h => ?_) fun _ => .parse
  · split
    · exact Result.raises_ok _
    · exact Result.raises_error (.parse hstart)
  · split at h
    · next hmeaning =>
        cases h
        exact ⟨t, ht, hmeaning⟩
    · cases h

theorem readsIn_expect (word : String) : ReadsIn s (fun _ => True) (expect word) :=
  (readsIn_expectOne _).forget

theorem readsIn_expectToken : ReadsIn s (fun t => t ∈ s.toList) expectToken := by
  rw [expectToken_eq_takeNext]
  refine readsIn_takeNext (fun _ _ _ => Result.raises_ok _) (fun start t a ht h => ?_)
    fun _ => .parse
  cases h
  exact ht

theorem readsIn_expectName : ReadsIn s (fun _ => True) expectName :=
  readsIn_expectToken.bind fun _ _ => ends_pure trivial

theorem readsIn_expectNumber : ReadsIn s (fun _ => True) expectNumber := by
  rw [expectNumber_eq_takeNext]
  refine readsIn_takeNext (fun start t hstart => ?_) (fun _ _ _ _ _ => trivial) fun _ => .parse
  split
  · split
    · exact Result.raises_ok _
    · exact Result.raises_error (.parse hstart)
  · exact Result.raises_error (.parse hstart)

theorem readsIn_expectEnd : ReadsIn s (fun _ => True) expectEnd := by
  intro p hp
  have hleads : s.LeadsTo p.ahead := hp
  rw [EndsAt, expectEnd, bind_apply_ok (position_apply p)]
  cases hahead : p.ahead with
  | token first rest =>
      rw [hahead] at hleads
      rw [bind_apply_ok (next_of_token hahead)]
      dsimp only
      cases first.is ";" with
      | true => exact ⟨hleads.behind, trivial⟩
      | false => exact .parse (isPlace_of_peek hp (peek_of_token hahead))
  | done n =>
      rw [bind_apply_ok (next_of_done hahead)]
      exact ⟨hp, trivial⟩
  | fault ch n =>
      rw [hahead] at hleads
      have hnext : next p = .error (.lexical ch n) p :=
        bind_eq_error.mpr (.inl (peek_of_fault hahead))
      exact endsAt_of_error (bind_eq_error.mpr (.inl hnext)) hleads.readingFault

/-! ## Forms made of forms -/

theorem endsAt_withSuffixes {form : Parse α} (on : Bool) {p : Parser}
    (h : EndsAt (Parser.Within s) E P form { p with suffixes := on }) :
    EndsAt (Parser.Within s) E P (withSuffixes on form) p := by
  cases hform : form { p with suffixes := on } with
  | ok a q =>
      have hwith : withSuffixes on form p = .ok a { q with suffixes := p.suffixes } := by
        rw [withSuffixes, hform]
      exact endsAt_of_ok hwith (h.ok hform).1 (h.ok hform).2
  | error e q =>
      have hwith : withSuffixes on form p = .error e { q with suffixes := p.suffixes } := by
        rw [withSuffixes, hform]
      exact endsAt_of_error hwith (h.error hform)

/-- On `budget`, wherever in the stream it is at least `factor` times the tokens left and `extra`,
the loop ends so. -/
def EndsOnBudget (s : TokenStream) (E : Fault → Prop) (P : α → Prop) (loop : Nat → Parse α)
    (factor extra budget : Nat) : Prop :=
  ∀ p : Parser, p.Within s → factor * p.ahead.length + extra ≤ budget →
    EndsAt (Parser.Within s) E P (loop budget) p

theorem endsOnBudget_zero {loop : Nat → Parse α} {factor extra : Nat} (h : 0 < extra) :
    EndsOnBudget s E P loop factor extra 0 :=
  fun p _ hbudget => absurd hbudget (by omega)

theorem endsOnBudget_separated {form : Parse α} (hform : ∀ s, ReadsIn s (fun _ => True) form)
    (h : ReadsIn s P form) (budget : Nat) :
    EndsOnBudget s s.ReadingFault (fun as => ∀ a ∈ as, P a) (separated form) 1 1 budget := by
  induction budget with
  | zero => exact endsOnBudget_zero Nat.one_pos
  | succ budget ih =>
      intro p hp hbudget
      refine endsAt_bind (h p hp) fun a q hq hwithin ha => ?_
      refine endsAt_bind (readsIn_accept "," q hwithin) fun more r hr hwithin _ => ?_
      have hle := length_le_of_ends (hform p.ahead) hq
      cases more with
      | false => exact ends_pure (List.forall_mem_singleton.mpr ha) r hwithin
      | true =>
          rcases accept_eq_ok hr with ⟨hfalse, -⟩ | ⟨-, first, rest, hahead, rfl⟩
          · cases hfalse
          have hlt : rest.length < q.ahead.length := by simp [hahead, TokenStream.length]
          refine endsAt_bind (ih _ hwithin (by dsimp only; omega)) fun rest r' _ hwithin hrest => ?_
          exact ends_pure (List.forall_mem_cons.mpr ⟨ha, hrest⟩) r' hwithin

theorem readsIn_commaSeparated {form : Parse α} (hform : ∀ s, ReadsIn s (fun _ => True) form)
    (h : ReadsIn s P form) : ReadsIn s (fun as => ∀ a ∈ as, P a) (commaSeparated form) :=
  fun p hp => endsOnBudget_separated hform h _ p hp (by omega)

theorem readsIn_skipWords (words : List String) : ReadsIn s (fun _ => True) (skipWords words) :=
  fun p hp => ⟨TokenStream.LeadsTo.trans hp (movesOn_skipWords words p), trivial⟩

end Parse

end OnePassSql

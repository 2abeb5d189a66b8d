import OnePassSql.Proofs.Alike.Definitions
import OnePassSql.Proofs.Statement.Budget

/-!
Statements compared. A step of a statement is a step of the parser, or it does not touch the parser
and so does the same in both runs.
-/

namespace OnePassSql

open Step TokenStream

variable {ρ α β : Type} {u v : TokenStream}

namespace Session

/-- Sessions before streams that go abreast, with nothing else to tell them apart. -/
structure Abreast (u v : TokenStream) (s s' : Session ρ) : Prop where
  parser : s.parser.Abreast u v s'.parser
  database : s.database = s'.database
  records : s.records = s'.records

/-- Runs of two statements are compared as those of two parsers are; also a fault leaves the same
database and the same records. -/
def comparison (u v : TokenStream) : Comparison (Session ρ) where
  ahead s := s.parser.ahead
  last := u
  alike := Abreast u v
  shows := Shows u v
  afterFault s s' := s.database = s'.database ∧ s.records = s'.records
  leadsTo_last h := h.parser.ahead.leadsTo
  last_ends := Shows.ending_eq
  afterFault_of_alike h := ⟨h.database, h.records⟩

/-- Of two statements that have come to their ends the databases and the records are compared, and
no longer what is left of their texts. -/
def outcomes (u v : TokenStream) : Comparison (Session ρ) where
  ahead s := s.parser.ahead
  last := u
  alike s s' := s.parser.ahead.LeadsTo u ∧ s.database = s'.database ∧ s.records = s'.records
  shows := Shows u v
  afterFault s s' := s.database = s'.database ∧ s.records = s'.records
  leadsTo_last h := h.1
  last_ends := Shows.ending_eq
  afterFault_of_alike h := h.2

end Session

namespace Statement

/-- The step does the same on sessions that go abreast. -/
abbrev ActsAlike (u v : TokenStream) (x : Statement ρ α) : Prop :=
  RunsAlike (Session.comparison u v) Eq x x

theorem moves_parsing {step : Parse α} (h : Parse.MovesOn step) :
    Respects (Session.comparison u v).MovesTo (liftM step : Statement ρ α) := by
  intro s
  change s.parser.ahead.LeadsTo (stateAfter (liftM step : Statement ρ α) s).parser.ahead
  rw [stateAfter_parsing]
  exact h s.parser

theorem runsAlike_parsing {V : α → β → Prop} {step : Parse α} {step' : Parse β}
    (h : RunsAlike (Parser.comparison u v) V step step') :
    RunsAlike (Session.comparison u v) V (liftM step : Statement ρ α)
      (liftM step' : Statement ρ β) := by
  refine ⟨moves_parsing h.movesOn, fun {s s'} hs => ?_⟩
  have hfollows := h.follows hs.parser
  cases hstep : step s.parser with
  | ok a p =>
      rw [parsing_eq_ok.mpr ⟨p, hstep, rfl⟩]
      intro hview
      obtain ⟨b, p', hstep', hV, hp⟩ := hfollows.ok hstep hview
      exact ⟨b, _, parsing_eq_ok.mpr ⟨p', hstep', rfl⟩, hV, hp, hs.database, hs.records⟩
  | error e p =>
      rw [parsing_eq_error.mpr ⟨p, hstep, rfl⟩]
      intro hshow
      obtain ⟨e', p', hstep', hsame, -⟩ := hfollows.error hstep hshow
      exact ⟨e', _, parsing_eq_error.mpr ⟨p', hstep', rfl⟩, hsame, hs.database, hs.records⟩

/-! ## Steps off the parser -/

/-- The step neither looks at the parser nor moves it. -/
def OffParser (x : Statement ρ α) : Prop :=
  ∀ s p, x { s with parser := p } = match x s with
    | .ok a t => .ok a { t with parser := p }
    | .error e t => .error e { t with parser := p }

theorem OffParser.parser_eq {x : Statement ρ α} (h : OffParser x) (s : Session ρ) :
    (stateAfter x s).parser = s.parser := by
  have hs := h s s.parser
  unfold stateAfter
  cases hx : x s with
  | ok a t =>
      simp only [hx, EStateM.Result.ok.injEq, true_and] at hs
      rw [hs]
  | error e t =>
      simp only [hx, EStateM.Result.error.injEq, true_and] at hs
      rw [hs]

theorem OffParser.bind {x : Statement ρ α} {f : α → Statement ρ β} (hx : OffParser x)
    (hf : ∀ a, OffParser (f a)) : OffParser (x >>= f) := by
  intro s p
  cases hxs : x s with
  | ok a t =>
      have hxs' := hx s p
      rw [hxs] at hxs'
      rw [bind_apply_ok hxs, bind_apply_ok hxs']
      exact hf a t p
  | error e t =>
      have hxs' := hx s p
      rw [hxs] at hxs'
      rw [bind_eq_error.mpr (.inl hxs), bind_eq_error.mpr (.inl hxs')]

theorem actsAlike_of_offParser {x : Statement ρ α} (h : OffParser x) : ActsAlike u v x := by
  constructor
  · intro s
    change s.parser.ahead.LeadsTo (stateAfter x s).parser.ahead
    rw [h.parser_eq]
    exact .refl _
  · intro s s' hs
    have hs' : x s' = x { s with parser := s'.parser } := by
      rw [hs.database, hs.records]
    have hparser := h.parser_eq s
    rw [hs', h s s'.parser]
    cases hx : x s with
    | ok a t =>
        rw [stateAfter_of_ok hx] at hparser
        exact fun _ => ⟨a, _, rfl, rfl, hparser ▸ hs.parser, rfl, rfl⟩
    | error e t => exact fun _ => ⟨e, _, rfl, rfl, rfl, rfl⟩

theorem offParser_settle (x : Except Fault α) : OffParser (settle x : Statement ρ α) := by
  intro s p
  cases x <;> rfl

/-- A look at the database and the records alone. -/
theorem offParser_get_bind {f : Session ρ → Statement ρ α}
    (hlook : ∀ s p, f { s with parser := p } = f s) (hf : ∀ s, OffParser (f s)) :
    OffParser (get >>= f) := by
  intro s p
  rw [bind_apply_ok (get_apply _), bind_apply_ok (get_apply _), hlook]
  exact hf s s p

theorem offParser_table (name : String) : OffParser (table name : Statement ρ Table) :=
  offParser_get_bind (fun _ _ => rfl) fun _ => offParser_settle _

theorem offParser_bindings : OffParser (bindings : Statement ρ Bindings) := fun _ _ => rfl

theorem offParser_change (c : Change) : OffParser (change c : Statement ρ Unit) := fun _ _ => rfl

theorem offParser_edit (name : String) (e : Edit ρ Unit) :
    OffParser (edit name e : Statement ρ Unit) := by
  refine (offParser_table name).bind fun t s p => ?_
  dsimp only
  cases e ⟨t, s.records⟩ <;> rfl

end Statement

end OnePassSql

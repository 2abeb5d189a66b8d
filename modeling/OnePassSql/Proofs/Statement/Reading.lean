import OnePassSql.Proofs.Parser.Clauses

/-!
A SELECT reads: whether it succeeds or faults, it takes tokens and leaves the database as it is.
-/

namespace OnePassSql

open Step

variable {ρ : Type} {α : Type}

namespace Session

/-- The database is the same in both states. -/
def SameDatabase (s t : Session ρ) : Prop := t.database = s.database

instance : IsPreorder (Session ρ) SameDatabase where
  refl _ := rfl
  trans _ _ _ hst htu := Eq.trans htu hst

/-- From the first state to the second only tokens were taken, and perhaps records told of new
columns. -/
def ReadsTo (s t : Session ρ) : Prop := s.parser.LeadsTo t.parser ∧ t.database = s.database

instance : IsPreorder (Session ρ) ReadsTo where
  refl s := ⟨refl s.parser, rfl⟩
  trans _ _ _ hst htu := ⟨IsTrans.trans _ _ _ hst.1 htu.1, htu.2.trans hst.2⟩

end Session

namespace Statement

/-! ## Steps of the parser within a statement -/

theorem parsing_eq_ok {step : Parse α} {s t : Session ρ} {a : α} :
    (liftM step : Statement ρ α) s = .ok a t ↔
      ∃ p, step s.parser = .ok a p ∧ t = { s with parser := p } := by
  change parsing step s = .ok a t ↔ _
  cases h : step s.parser with
  | ok a p => simp [parsing, h, and_assoc, eq_comm]
  | error fault p => simp [parsing, h]

theorem parsing_eq_error {step : Parse α} {s t : Session ρ} {fault : Fault} :
    (liftM step : Statement ρ α) s = .error fault t ↔
      ∃ p, step s.parser = .error fault p ∧ t = { s with parser := p } := by
  change parsing step s = .error fault t ↔ _
  cases h : step s.parser with
  | ok a p => simp [parsing, h]
  | error fault p => simp [parsing, h, and_assoc, eq_comm]

theorem stateAfter_parsing (step : Parse α) (s : Session ρ) :
    stateAfter (liftM step : Statement ρ α) s = { s with parser := stateAfter step s.parser } := by
  change stateAfter (parsing step) s = _
  cases h : step s.parser <;> simp [stateAfter, parsing, h]

theorem parsing_bind {β : Type} (step : Parse α) (f : α → Parse β) :
    (liftM (step >>= f) : Statement ρ β)
      = (liftM step : Statement ρ α) >>= fun a => (liftM (f a) : Statement ρ β) := by
  funext s
  cases h : step s.parser with
  | ok a p =>
      have hlift : (liftM step : Statement ρ α) s = .ok a { s with parser := p } :=
        parsing_eq_ok.mpr ⟨p, h, rfl⟩
      rw [bind_apply_ok hlift]
      change parsing (step >>= f) s = parsing (f a) { s with parser := p }
      unfold parsing
      rw [bind_apply_ok h]
  | error fault p =>
      have hlift : (liftM step : Statement ρ α) s = .error fault { s with parser := p } :=
        parsing_eq_error.mpr ⟨p, h, rfl⟩
      rw [bind_eq_error.mpr (.inl hlift)]
      exact parsing_eq_error.mpr ⟨p, bind_eq_error.mpr (.inl h), rfl⟩

theorem reads_parsing {step : Parse α} (h : Parse.MovesOn step) :
    Respects Session.ReadsTo (liftM step : Statement ρ α) := by
  intro s
  rw [stateAfter_parsing]
  exact ⟨h s.parser, rfl⟩

theorem sameDatabase_parsing (step : Parse α) :
    Respects Session.SameDatabase (liftM step : Statement ρ α) := by
  intro s
  rw [stateAfter_parsing]
  rfl

theorem bindings_apply (s : Session ρ) : bindings s = .ok s.database.bindings s := rfl

theorem tokensLeft_apply (s : Session ρ) : tokensLeft s = .ok s.parser.ahead.length s := rfl

variable {R : Session ρ → Session ρ → Prop}

/-- Every step that only takes tokens moves the session along the relation. -/
def ParsesAlong (R : Session ρ → Session ρ → Prop) : Prop :=
  ∀ {α : Type} {step : Parse α}, Parse.MovesOn step → Respects R (liftM step : Statement ρ α)

variable [IsPreorder (Session ρ) R]

theorem respects_table (name : String) : Respects R (table name : Statement ρ Table) :=
  respects_get.bind fun _ => respects_settle _

theorem respects_bindings : Respects R (bindings : Statement ρ Bindings) :=
  respects_get.bind fun _ => respects_pure _

theorem respects_tokensLeft : Respects R (tokensLeft : Statement ρ Nat) :=
  respects_get.bind fun _ => respects_pure _

end Statement

namespace Select

open Parse Statement

/-! ## The loops of a SELECT

Of their steps only `unite` does more than take tokens and look at the database. -/

section Loops

variable {R : Session ρ → Session ρ → Prop} [IsPreorder (Session ρ) R]

variable [Record ρ] {budget : Nat}

theorem respects_extract (t : Table) (columns : Option (List Expr)) (predicate : Option Expr) :
    Respects R (extract t columns predicate : Statement ρ Table) :=
  respects_get.bind fun _ => respects_settle _

theorem respects_combine {t : Table} {left : Option (Table × Compound)}
    (hunite : ∀ other, left = some (other, .union) →
      Respects R (unite t other : Statement ρ Table)) :
    Respects R (combine t left : Statement ρ Table) := by
  cases left with
  | none => exact respects_pure _
  | some left =>
      obtain ⟨other, compound⟩ := left
      cases compound with
      | union => exact hunite other rfl
      | intersect => exact respects_throw _
      | except => exact respects_throw _

/-- The name that a source may be given, which is read only. -/
def renamed (source : Table) : Statement ρ Table := do
  if ← accept "AS" then
    let _ ← expectToken
  return source

/-- What may follow the first source of a core: a join, which is refused. -/
def joinedBehind (budget : Nat) (source : Table) : Statement ρ Table := do
  match ← joinStart? with
  | none => return source
  | some word =>
    skipWords joinWords
    let _ ← sourceWithin budget
    joinCondition
    throw (.unsupported (.join word))

/-- What a core reads behind its source, and what it makes of it. -/
def behindSource (columns : Option (List Expr)) (source : Table) : Statement ρ Table := do
  let predicate ← optionalExpression "WHERE" (← bindings)
  grouping
  extract source columns predicate

/-- What follows the result of a core. -/
def behindCore (budget : Nat) (result : Table) : Statement ρ Table := do
  let result ← match ← compound? with
    | none => pure result
    | some compound =>
      expect "SELECT"
      selectWithin budget (some (result, compound))
  ordering
  limit
  return result

theorem selectWithin_succ (budget : Nat) (left : Option (Table × Compound)) :
    (selectWithin (budget + 1) left : Statement ρ Table)
      = coreWithin budget >>= fun core => combine core left >>= behindCore budget := rfl

theorem joinedWithin_succ (budget : Nat) :
    (joinedWithin (budget + 1) : Statement ρ Table)
      = sourceWithin budget >>= joinedBehind budget := rfl

/-- Of the compounds only those matter that can be read in the state. -/
theorem respects_behindCore_at (hparse : ParsesAlong R) {result : Table} {s : Session ρ}
    (hselect : ∀ compound p, compound? s.parser = .ok (some compound) p →
      Respects R (selectWithin budget (some (result, compound)) : Statement ρ Table)) :
    R s (stateAfter (behindCore budget result : Statement ρ Table) s) := by
  refine respects_bind_at (hparse movesOn_compound? s) fun found t hfound => ?_
  have htail : ∀ result : Table, Respects R (do
      (ordering : Parse Unit); (limit : Parse Unit); return result : Statement ρ Table) :=
    fun result => (hparse movesOn_ordering).bind fun _ =>
      (hparse movesOn_limit).bind fun _ => respects_pure _
  cases found with
  | none => exact (respects_pure _).bind htail t
  | some compound =>
      obtain ⟨p, hp, -⟩ := parsing_eq_ok.mp hfound
      exact (hparse (movesOn_expect _)).bind (fun _ => (hselect compound p hp).bind htail) t

theorem respects_selectWithin_succ (hparse : ParsesAlong R)
    (hunite : ∀ t other, Respects R (unite t other : Statement ρ Table))
    (hselect : ∀ left, Respects R (selectWithin budget left : Statement ρ Table))
    (hcore : Respects R (coreWithin budget : Statement ρ Table))
    (left : Option (Table × Compound)) :
    Respects R (selectWithin (budget + 1) left : Statement ρ Table) := by
  rw [selectWithin_succ]
  have hcombine : ∀ core, Respects R (combine core left : Statement ρ Table) :=
    fun core => respects_combine fun other _ => hunite core other
  exact hcore.bind fun core => (hcombine core).bind fun result s =>
    respects_behindCore_at hparse fun _ _ _ => hselect _

theorem respects_coreWithin_succ (hparse : ParsesAlong R)
    (hjoined : Respects R (joinedWithin budget : Statement ρ Table)) :
    Respects R (coreWithin (budget + 1) : Statement ρ Table) := by
  refine (hparse (movesOn_acceptOne? _)).bind fun _ => respects_bindings.bind fun b =>
    (hparse (movesOn_resultColumns b)).bind fun columns =>
      (hparse (movesOn_accept "FROM")).bind fun hasSource => ?_
  have hrest : ∀ source : Table, Respects R (do
      let predicate ← optionalExpression "WHERE" (← bindings)
      (grouping : Parse Unit)
      extract source columns predicate : Statement ρ Table) :=
    fun source => respects_bindings.bind fun b =>
      (hparse (movesOn_optionalExpression _ b)).bind fun predicate =>
        (hparse movesOn_grouping).bind fun _ => respects_extract _ _ _
  split
  · exact hjoined.bind hrest
  split
  · exact (respects_throw _).bind hrest
  · exact (respects_pure _).bind hrest

theorem respects_joinedWithin_succ (hparse : ParsesAlong R)
    (hsource : Respects R (sourceWithin budget : Statement ρ Table)) :
    Respects R (joinedWithin (budget + 1) : Statement ρ Table) := by
  refine hsource.bind fun source => (hparse movesOn_joinStart?).bind fun found => ?_
  cases found with
  | none => exact respects_pure _
  | some word =>
      exact (hparse (movesOn_skipWords _)).bind fun _ => hsource.bind fun _ =>
        (hparse movesOn_joinCondition).bind fun _ => respects_throw _

theorem respects_sourceWithin_succ (hparse : ParsesAlong R)
    (hselect : Respects R (selectWithin budget none : Statement ρ Table))
    (hjoined : Respects R (joinedWithin budget : Statement ρ Table)) :
    Respects R (sourceWithin (budget + 1) : Statement ρ Table) := by
  refine (hparse (movesOn_accept "(")).bind fun nested => ?_
  have hrest : ∀ source : Table, Respects R (do
      if ← accept "AS" then
        let _ ← expectToken
      return source : Statement ρ Table) := by
    intro source
    refine (hparse (movesOn_accept "AS")).bind fun named => ?_
    cases named with
    | true => exact (hparse movesOn_expectToken).bind fun _ => respects_pure _
    | false => exact respects_pure _
  cases nested with
  | true =>
      refine (hparse (movesOn_accept "SELECT")).bind fun isSelect => ?_
      cases isSelect with
      | true =>
          exact hselect.bind fun _ => (hparse (movesOn_expect _)).bind fun _ =>
            (respects_pure _).bind hrest
      | false =>
          exact hjoined.bind fun _ => (hparse (movesOn_expect _)).bind fun _ =>
            (respects_pure _).bind hrest
  | false =>
      exact (hparse movesOn_expectName).bind fun name => (respects_table name).bind hrest

/-- All the loops respect the relation, on whatever budget, if the first one does on one budget more
behind those compounds that can lead to it. -/
theorem respects_withinBudget_of_succ (hparse : ParsesAlong R)
    (Behind : Option (Table × Compound) → Prop) (hnone : Behind none)
    (hsucc : ∀ budget : Nat,
      (∀ left, Behind left → Respects R (selectWithin budget left : Statement ρ Table)) →
      Respects R (coreWithin budget : Statement ρ Table) →
      ∀ left, Behind left → Respects R (selectWithin (budget + 1) left : Statement ρ Table))
    (budget : Nat) :
    (∀ left, Behind left → Respects R (selectWithin budget left : Statement ρ Table)) ∧
      Respects R (coreWithin budget : Statement ρ Table) ∧
      Respects R (joinedWithin budget : Statement ρ Table) ∧
      Respects R (sourceWithin budget : Statement ρ Table) := by
  induction budget with
  | zero =>
      exact ⟨fun _ _ => respects_throw _, respects_throw _, respects_throw _, respects_throw _⟩
  | succ budget ih =>
      obtain ⟨hselect, hcore, hjoined, hsource⟩ := ih
      exact ⟨hsucc budget hselect hcore, respects_coreWithin_succ hparse hjoined,
        respects_joinedWithin_succ hparse hsource,
        respects_sourceWithin_succ hparse (hselect none hnone) hjoined⟩

/-- All the loops respect what `unite` respects. -/
theorem respects_withinBudget (hparse : ParsesAlong R)
    (hunite : ∀ t other, Respects R (unite t other : Statement ρ Table)) (budget : Nat) :
    (∀ left, Respects R (selectWithin budget left : Statement ρ Table)) ∧
      Respects R (coreWithin budget : Statement ρ Table) ∧
      Respects R (joinedWithin budget : Statement ρ Table) ∧
      Respects R (sourceWithin budget : Statement ρ Table) := by
  obtain ⟨hselect, hrest⟩ := respects_withinBudget_of_succ hparse (fun _ => True) trivial
    (fun budget hselect hcore left _ => respects_selectWithin_succ hparse hunite
      (fun left => hselect left trivial) hcore left) budget
  exact ⟨fun left => hselect left trivial, hrest⟩

end Loops

/-! ## SELECT -/

variable [Record ρ]

theorem reads_unite (t other : Table) :
    Respects Session.ReadsTo (unite t other : Statement ρ Table) := by
  intro s
  unfold stateAfter unite
  cases Edit.union other ⟨t, s.records⟩ <;> exact ⟨refl s.parser, rfl⟩

theorem reads_combine (t : Table) (left : Option (Table × Compound)) :
    Respects Session.ReadsTo (combine t left : Statement ρ Table) :=
  respects_combine fun other _ => reads_unite t other

/-- All the loops of a SELECT only read, on whatever budget. -/
theorem reads_withinBudget (budget : Nat) :
    (∀ left, Respects Session.ReadsTo (selectWithin budget left : Statement ρ Table)) ∧
      Respects Session.ReadsTo (coreWithin budget : Statement ρ Table) ∧
      Respects Session.ReadsTo (joinedWithin budget : Statement ρ Table) ∧
      Respects Session.ReadsTo (sourceWithin budget : Statement ρ Table) :=
  respects_withinBudget reads_parsing reads_unite budget

theorem reads_select : Respects Session.ReadsTo (select : Statement ρ Table) :=
  respects_tokensLeft.bind fun _ => (reads_withinBudget _).1 none

end Select

end OnePassSql

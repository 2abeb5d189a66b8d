import OnePassSql.Proofs.Statement.Rounds

/-!
A compound SELECT goes from core to core: every core takes a token, and so does every source, every
join and every SELECT in parentheses. So on a budget of twice the tokens left, and two, a SELECT
ends, whatever was read before it.
-/

namespace OnePassSql

open Step

namespace Statement

open Parse

variable {ρ α : Type}

theorem spends_of_reads {x : Statement ρ α} (h : Respects Session.ReadsTo x) :
    Spends Session.tokens (fun _ => 0) x :=
  fun _ _ _ hs => (h.ok hs).tokens_le

theorem spends_parsing {step : Parse α} {need : α → Nat} (h : Spends Parser.tokens need step) :
    Spends Session.tokens need (liftM step : Statement ρ α) := by
  intro s a t hs
  obtain ⟨p, hp, rfl⟩ := parsing_eq_ok.mp hs
  exact h s.parser a p hp

theorem lasts_parsing {step : Parse α} (h : Lasts step) :
    Lasts (liftM step : Statement ρ α) := by
  refine lasts_iff.mpr fun s t hs => ?_
  obtain ⟨p, hp, -⟩ := parsing_eq_error.mp hs
  exact lasts_iff.mp h s.parser p hp

end Statement

namespace Select

open Parse Statement

variable {ρ : Type}

/-! ## What a SELECT takes -/

theorem spends_commaSeparated {α : Type} {form : Parse α} (hmoves : MovesOn form)
    (hspends : Spends Parser.tokens (fun _ => 1) form) :
    Spends Parser.tokens (fun _ => 1) (commaSeparated form) := by
  refine (spends_get fun _ => rfl).bind fun p => hspends.bind fun a => spends_of_movesOn ?_
  refine (movesOn_accept ",").bind fun more => ?_
  cases more with
  | true => exact (movesOn_separated hmoves _).bind fun _ => respects_pure _
  | false => exact respects_pure _

theorem spends_resultColumns (b : Bindings) :
    Spends Parser.tokens (fun _ => 1) (resultColumns b) := by
  refine (spends_accept "*").bind fun star => ?_
  cases star with
  | true => exact spends_pure rfl
  | false =>
      exact (spends_commaSeparated (movesOn_boundExpression b) (spends_boundExpression b)).bind
        fun _ => spends_pure rfl

variable [Record ρ] {budget : Nat}

theorem reads_behindSource (columns : Option (List Expr)) (source : Table) :
    Respects Session.ReadsTo (behindSource columns source : Statement ρ Table) :=
  respects_bindings.bind fun b => (reads_parsing (movesOn_optionalExpression _ b)).bind
    fun _ => (reads_parsing movesOn_grouping).bind fun _ => respects_extract _ _ _

theorem reads_joinedBehind (budget : Nat) (source : Table) :
    Respects Session.ReadsTo (joinedBehind budget source : Statement ρ Table) := by
  refine (reads_parsing movesOn_joinStart?).bind fun found => ?_
  cases found with
  | none => exact respects_pure _
  | some word =>
      exact (reads_parsing (movesOn_skipWords _)).bind fun _ =>
        (reads_withinBudget budget).2.2.2.bind fun _ =>
          (reads_parsing movesOn_joinCondition).bind fun _ => respects_throw _

theorem reads_behindCore (budget : Nat) (result : Table) :
    Respects Session.ReadsTo (behindCore budget result : Statement ρ Table) :=
  fun _ => respects_behindCore_at reads_parsing fun _ _ _ => (reads_withinBudget budget).1 _

omit [Record ρ] in
theorem reads_renamed (source : Table) :
    Respects Session.ReadsTo (renamed source : Statement ρ Table) := by
  refine (reads_parsing (movesOn_accept "AS")).bind fun named => ?_
  cases named with
  | true => exact (reads_parsing movesOn_expectToken).bind fun _ => respects_pure _
  | false => exact respects_pure _

theorem spends_coreWithin (budget : Nat) :
    Spends Session.tokens (fun _ => 1) (coreWithin budget : Statement ρ Table) := by
  cases budget with
  | zero => exact spends_throw _
  | succ budget =>
      refine (spends_parsing (spends_of_movesOn (movesOn_acceptOne? _))).bind fun _ =>
        (spends_of_reads respects_bindings).bind fun b =>
          (spends_parsing (spends_resultColumns b)).bind fun columns => spends_of_reads ?_
      refine (reads_parsing (movesOn_accept "FROM")).bind fun hasSource => ?_
      cases hasSource with
      | true =>
          exact (reads_withinBudget budget).2.2.1.bind fun source =>
            reads_behindSource columns source
      | false =>
          cases columns with
          | none => exact (respects_throw _).bind fun source => reads_behindSource none source
          | some columns => exact reads_behindSource _ _

theorem spends_sourceWithin (budget : Nat) :
    Spends Session.tokens (fun _ => 1) (sourceWithin budget : Statement ρ Table) := by
  cases budget with
  | zero => exact spends_throw _
  | succ budget =>
      refine (spends_parsing (spends_accept "(")).bind fun nested => ?_
      cases nested with
      | true =>
          refine spends_of_reads ((reads_parsing (movesOn_accept "SELECT")).bind fun isSelect => ?_)
          have hclose : ∀ inner : Table, Respects Session.ReadsTo (do
              (expect ")" : Parse Unit)
              renamed inner : Statement ρ Table) :=
            fun inner => (reads_parsing (movesOn_expect _)).bind fun _ => reads_renamed inner
          cases isSelect with
          | true => exact ((reads_withinBudget budget).1 none).bind hclose
          | false => exact (reads_withinBudget budget).2.2.1.bind hclose
      | false =>
          exact (spends_parsing spends_expectName).bind fun name => spends_of_reads
            ((respects_table name).bind fun source => reads_renamed source)

theorem spends_joinedWithin (budget : Nat) :
    Spends Session.tokens (fun _ => 1) (joinedWithin budget : Statement ρ Table) := by
  cases budget with
  | zero => exact spends_throw _
  | succ budget =>
      rw [joinedWithin_succ]
      exact (spends_sourceWithin budget).bind fun source =>
        spends_of_reads (reads_joinedBehind budget source)

theorem spends_selectWithin (budget : Nat) (left : Option (Table × Compound)) :
    Spends Session.tokens (fun _ => 1) (selectWithin budget left : Statement ρ Table) := by
  cases budget with
  | zero => exact spends_throw _
  | succ budget =>
      rw [selectWithin_succ]
      exact (spends_coreWithin budget).bind fun core => spends_of_reads
        ((reads_combine core left).bind fun result => reads_behindCore budget result)

/-! ## Budgets that do not run out -/

/-- With its word in front, a text has the compound before any of its cores. -/
theorem exists_worded (left : Option (Table × Compound)) (ahead : TokenStream) :
    ∃ s : TokenStream, s.LeadsTo ahead ∧ Worded s left := by
  have hword : ∀ compound, ∃ t : Token, meaning? [("UNION", Compound.union),
      ("INTERSECT", .intersect), ("EXCEPT", .except)] t = some compound := by
    intro compound
    cases compound with
    | union => exact ⟨⟨.word, "UNION", 0⟩, by decide⟩
    | intersect => exact ⟨⟨.word, "INTERSECT", 0⟩, by decide⟩
    | except => exact ⟨⟨.word, "EXCEPT", 0⟩, by decide⟩
  cases left with
  | none => exact ⟨ahead, .refl ahead, worded_none⟩
  | some left =>
      obtain ⟨word, hmeaning⟩ := hword left.2
      refine ⟨.token word ahead, .token word (.refl ahead), ?_⟩
      rintro t compound ⟨⟩
      exact ⟨word, List.mem_cons_self, hmeaning⟩

theorem lastsAt_selectWithin {s : Session ρ} (left : Option (Table × Compound))
    (h : 2 * s.tokens + 2 ≤ budget) : LastsAt (selectWithin budget left) s := by
  obtain ⟨stream, hleads, hworded⟩ := exists_worded left s.parser.ahead
  have hstays := (staysOnBudget_withinBudget (ρ := ρ) stream s.database.bindings budget).1
  exact (hstays left hworded s ⟨hleads, rfl⟩ h).lasts nofun

theorem lastsAt_withinBudget {s : Session ρ} :
    (2 * s.tokens + 1 ≤ budget → LastsAt (coreWithin budget) s) ∧
      (2 * s.tokens + 2 ≤ budget → LastsAt (joinedWithin budget) s) ∧
      (2 * s.tokens + 1 ≤ budget → LastsAt (sourceWithin budget) s) := by
  obtain ⟨-, hcore, hjoined, hsource⟩ :=
    staysOnBudget_withinBudget (ρ := ρ) s.parser.ahead s.database.bindings budget
  have hwithin : s.Within s.parser.ahead s.database.bindings := ⟨.refl _, rfl⟩
  exact ⟨fun h => (hcore s hwithin h).lasts nofun, fun h => (hjoined s hwithin h).lasts nofun,
    fun h => (hsource s hwithin h).lasts nofun⟩

/-! ## From core to core -/

/-- A core, what it makes of those before it, and the words behind it that ask for another one. -/
def segment (left : Option (Table × Compound)) :
    Statement ρ (Turn (Option (Table × Compound)) Table) := do
  let core ← core
  let result ← combine core left
  match ← compound? with
  | none => return .last result
  | some compound =>
    expect "SELECT"
    return .again (some (result, compound))

omit [Record ρ] in
/-- What follows the cores. -/
def closing (result : Table) : Statement ρ Table := do
  ordering
  limit
  return result

theorem spends_segment (left : Option (Table × Compound)) :
    Spends Session.tokens (fun _ => 1) (segment left : Statement ρ _) := by
  refine ((spends_of_reads respects_tokensLeft).bind fun _ => spends_coreWithin _).bind
    fun core => ?_
  have hrest : Respects Session.ReadsTo (do
      let result ← combine core left
      match ← compound? with
      | none => return .last result
      | some compound =>
        expect "SELECT"
        return .again (some (result, compound)) :
      Statement ρ (Turn (Option (Table × Compound)) Table)) := by
    refine (reads_combine core left).bind fun result =>
      (reads_parsing movesOn_compound?).bind fun found => ?_
    cases found with
    | none => exact respects_pure _
    | some compound => exact (reads_parsing (movesOn_expect _)).bind fun _ => respects_pure _
  exact spends_of_reads hrest

theorem lasts_core : Lasts (core : Statement ρ Table) := fun _ _ =>
  lastsAt_withinBudget.1 (Nat.le_refl _)

theorem lasts_combine (core : Table) (left : Option (Table × Compound)) :
    Lasts (combine core left : Statement ρ Table) := by
  intro s _
  obtain ⟨stream, hleads, hworded⟩ := exists_worded left s.parser.ahead
  exact (staysIn_combine core hworded s ⟨hleads, rfl⟩ :
    EndsAt _ (stream.StatementFault s.database.bindings) _ _ s).lasts nofun

theorem lasts_segment (left : Option (Table × Compound)) :
    Lasts (segment left : Statement ρ _) := by
  refine lasts_core.bind fun core => (lasts_combine core left).bind fun result =>
    (lasts_parsing (lasts_of_readsIn fun _ => readsIn_compound?)).bind fun found => ?_
  cases found with
  | none => exact lasts_pure _
  | some compound =>
      exact (lasts_parsing (lasts_of_readsIn fun _ => readsIn_expect _)).bind fun _ => lasts_pure _

theorem selectWithin_eq_segment {s : Session ρ} (h : 2 * s.tokens + 2 ≤ budget + 1)
    (left : Option (Table × Compound)) :
    selectWithin (budget + 1) left s
      = (segment left >>= goOn (selectWithin budget) >>= closing) s := by
  rw [selectWithin_succ, segment, bind_assoc, bind_assoc]
  refine bind_congr (coreWithin_eq_core (by omega)) fun core t _ => ?_
  rw [bind_assoc]
  refine bind_congr rfl fun result u _ => ?_
  rw [behindCore, bind_assoc]
  refine bind_congr rfl fun found v _ => ?_
  cases found with
  | none => rfl
  | some compound =>
      dsimp only
      rw [bind_assoc]
      rfl

/-! ## The words of a join -/

theorem sourceWithin_of_peek {s : Session ρ} {e : Fault} {p : Parser}
    (h : peek s.parser = .error e p) :
    (sourceWithin (budget + 1) : Statement ρ Table) s = .error e { s with parser := p } := by
  have haccept : accept "(" s.parser = .error e p :=
    bind_eq_error.mpr (.inl (bind_eq_error.mpr (.inl h)))
  unfold sourceWithin
  exact bind_eq_error.mpr (.inl (parsing_eq_error.mpr ⟨p, haccept, rfl⟩))

/-- Whether the token behind the words of a join is looked at with them or with the source that
follows does not show. -/
theorem joinedBehind_eq_skipAllWords (budget : Nat) (source : Table) :
    (joinedBehind (budget + 1) source : Statement ρ Table) = (do
      match ← joinStart? with
      | none => return source
      | some word =>
        skipAllWords joinWords
        let _ ← sourceWithin (budget + 1)
        joinCondition
        throw (.unsupported (.join word))) := by
  refine congrArg ((liftM joinStart? : Statement ρ (Option String)) >>= ·) (funext fun found => ?_)
  cases found with
  | none => rfl
  | some word =>
      funext s
      dsimp only
      rw [skipAllWords, parsing_bind, bind_assoc]
      refine bind_congr rfl fun _ t _ => ?_
      cases hpeek : peek t.parser with
      | ok first p =>
          obtain ⟨rfl, -⟩ := peek_eq_ok hpeek
          have hlook : (liftM (peek >>= fun _ => pure () : Parse Unit) : Statement ρ Unit) t
              = .ok ⟨⟩ t := parsing_eq_ok.mpr ⟨t.parser, by rw [bind_apply_ok hpeek]; rfl, rfl⟩
          rw [bind_apply_ok hlook]
      | error e p =>
          have hlook : (liftM (peek >>= fun _ => pure () : Parse Unit) : Statement ρ Unit) t
              = .error e { t with parser := p } :=
            parsing_eq_error.mpr ⟨p, bind_eq_error.mpr (.inl hpeek), rfl⟩
          rw [bind_eq_error.mpr (.inl (sourceWithin_of_peek hpeek)), bind_eq_error.mpr (.inl hlook)]

end Select

end OnePassSql

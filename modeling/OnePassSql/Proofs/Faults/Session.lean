import OnePassSql.Proofs.Faults.Definitions
import OnePassSql.Proofs.Statement.Reading
import OnePassSql.Statement.Run

/-!
What a statement can fault with, told from its text: what is wrong with reading it, what is wrong with
what it says, a text that does not read as a value, or something that it asks for and that the
library does not do.
-/

namespace OnePassSql

open Step

namespace TokenStream

/-- A text asks for a feature: with the words of a compound or a join, with a membership test that
the evaluation of one of its expressions comes to, or with the type of a call. Expressions are
evaluated and typed in a table or on one of its rows, and defaults without a table. -/
inductive AsksFor (s : TokenStream) (b : Bindings) : Feature → Prop where
  | intersect {t} : t ∈ s.toList → t.is "INTERSECT" = true → AsksFor s b .intersect
  | except {t} : t ∈ s.toList → t.is "EXCEPT" = true → AsksFor s b .except
  | join {t word} : t ∈ s.toList → word ∈ "," :: Select.joinWords → t.is word = true →
      AsksFor s b (.join word)
  | membership {e scope} : s.Says b e → scope.OfTable → e.MeetsMembership scope →
      AsksFor s b .membership
  | default {e} : s.Defaults b e → e.MeetsMembership .none → AsksFor s b .membership
  | callType {e scope} : s.Says b e → scope.OfTable → e.AsksCallType scope →
      AsksFor s b (.functionType "COALESCE")

/-- What can be wrong with a statement. -/
inductive StatementFault (s : TokenStream) (b : Bindings) : Fault → Prop where
  | reading {fault} : s.ReadingFault fault → StatementFault s b fault
  | semantic {fault} : fault.IsSemantic → StatementFault s b fault
  | coercion {fault} : fault.IsCoercion → StatementFault s b fault
  | argument : StatementFault s b (.argument .pragma)
  | unsupported {feature} : s.AsksFor b feature → StatementFault s b (.unsupported feature)

theorem StatementFault.of_definition {s : TokenStream} {b : Bindings} {fault : Fault}
    (h : s.DefinitionFault b fault) : s.StatementFault b fault := by
  cases h with
  | reading h => exact .reading h
  | semantic h => exact .semantic h
  | coercion h => exact .coercion h
  | default he hmeets => exact .unsupported (.default he hmeets)

theorem StatementFault.of_eval {s : TokenStream} {b : Bindings} {e : Expr} {scope : Scope}
    {fault : Fault} (he : s.Says b e) (hscope : scope.OfTable) (h : e.EvalFault scope fault) :
    s.StatementFault b fault := by
  cases h with
  | semantic h => exact .semantic h
  | coercion h => exact .coercion h
  | membership h => exact .unsupported (.membership he hscope h)

end TokenStream

/-- The session is somewhere in the text, with the given values bound. -/
def Session.Within {ρ : Type} (s : TokenStream) (b : Bindings) (t : Session ρ) : Prop :=
  t.parser.Within s ∧ t.database.bindings = b

namespace Statement

open Parse

variable {ρ α : Type} {s : TokenStream} {b : Bindings} {E : Fault → Prop} {P : α → Prop}

/-- Wherever the step starts in the text, it stays in the text, its results are in `P`, and it
faults only with what can be wrong with a statement. -/
abbrev StaysIn (s : TokenStream) (b : Bindings) (P : α → Prop) (x : Statement ρ α) : Prop :=
  Ends (Session.Within s b) (s.StatementFault b) P x

/-! ## Steps of sessions -/

theorem endsAt_parsing {step : Parse α} {t : Session ρ} (hb : t.database.bindings = b)
    (h : EndsAt (Parser.Within s) E P step t.parser) :
    EndsAt (Session.Within s b) E P (liftM step : Statement ρ α) t := by
  cases hstep : step t.parser with
  | ok a p =>
      have hlifted : (liftM step : Statement ρ α) t = .ok a { t with parser := p } :=
        parsing_eq_ok.mpr ⟨p, hstep, rfl⟩
      exact endsAt_of_ok hlifted ⟨(h.ok hstep).1, hb⟩ (h.ok hstep).2
  | error fault p =>
      have hlifted : (liftM step : Statement ρ α) t = .error fault { t with parser := p } :=
        parsing_eq_error.mpr ⟨p, hstep, rfl⟩
      exact endsAt_of_error hlifted (h.error hstep)

theorem ends_parsing {step : Parse α} (h : Ends (Parser.Within s) E P step) :
    Ends (Session.Within s b) E P (liftM step : Statement ρ α) :=
  fun t ht => endsAt_parsing ht.2 (h t.parser ht.1)

theorem ends_of_readsIn {step : Parse α} (h : ReadsIn s P step) :
    Ends (Parser.Within s) (s.StatementFault b) P step :=
  h.mono (fun _ => .reading) fun _ ha => ha

theorem staysIn_of_readsIn {step : Parse α} (h : ReadsIn s P step) :
    StaysIn s b P (liftM step : Statement ρ α) :=
  ends_parsing (ends_of_readsIn h)

theorem raises_table (db : Database) (name : String) :
    Result.Raises Fault.IsSemantic (db.table name) := by
  unfold Database.table
  split
  · exact Result.raises_ok _
  · exact Result.raises_error .semantic

theorem staysIn_table (name : String) :
    StaysIn s b (fun _ => True) (table name : Statement ρ Table) :=
  ends_get.bind fun t _ => ends_settle ((raises_table t.database name).mono fun _ => .semantic)
    fun _ _ => trivial

theorem staysIn_bindings : StaysIn s b (fun bound => bound = b) (bindings : Statement ρ Bindings) :=
  ends_get.bind fun _ ht => ends_pure ht.2

theorem bindings_change (db : Database) (c : Change) : (db.change c).bindings = db.bindings := by
  cases c <;> rfl

theorem staysIn_change (c : Change) :
    StaysIn s b (fun _ => True) (change c : Statement ρ Unit) :=
  ends_modify fun t ht => ⟨ht.1, (bindings_change t.database c).trans ht.2⟩

end Statement

end OnePassSql

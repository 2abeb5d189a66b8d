import OnePassSql.Proofs.Statement.Compound
import OnePassSql.Proofs.Table.Telling

/-!
What a SELECT does to the records behind linked rows. It writes to none of them, but UNION lets the
table of its later core grow, and if that core shows linked rows, their records are told of the new
columns.
-/

namespace OnePassSql

open Step

variable {ρ : Type}

/-! ## Words that do not occur -/

namespace TokenStream

/-- No token reads as the word. -/
def Lacks (s : TokenStream) (word : String) : Prop := ∀ t ∈ s.toList, t.is word = false

theorem LeadsTo.lacks {s t : TokenStream} (h : s.LeadsTo t) {word : String}
    (hs : s.Lacks word) : t.Lacks word := by
  induction h with
  | refl s => exact hs
  | token first _ ih => exact ih fun t ht => hs t (List.mem_cons_of_mem first ht)

end TokenStream

/-! ## What becomes of records -/

namespace Session

/-- Tokens were taken, and if UNION was not among them, the records are as they were. -/
def KeepsTo (s t : Session ρ) : Prop :=
  s.parser.LeadsTo t.parser ∧ (s.parser.ahead.Lacks "UNION" → t.records = s.records)

instance : IsPreorder (Session ρ) KeepsTo where
  refl s := ⟨refl s.parser, fun _ => rfl⟩
  trans _ _ _ hst htu := ⟨IsTrans.trans _ _ _ hst.1 htu.1,
    fun h => (htu.2 (hst.1.lacks h)).trans (hst.2 h)⟩

variable [Record ρ]

/-- The records were told of columns, if anything. -/
def TellsTo (s t : Session ρ) : Prop := s.records.Told t.records

instance : IsPreorder (Session ρ) TellsTo where
  refl s := refl s.records
  trans _ _ _ hst htu := Relation.ReflTransGen.trans hst htu

end Session

namespace Select

open Parse Statement

theorem keeps_parsing : ParsesAlong (Session.KeepsTo (ρ := ρ)) := by
  intro α step h s
  rw [stateAfter_parsing]
  exact ⟨h s.parser, fun _ => rfl⟩

theorem not_lacks_of_union {p q : Parser} (h : compound? p = .ok (some .union) q) :
    ¬ p.ahead.Lacks "UNION" := by
  intro hlacks
  obtain ⟨found, p', hfound, hgiven⟩ := bind_eq_ok.mp h
  rcases acceptOne?_eq_ok hfound with ⟨rfl, -⟩ | ⟨compound, first, rest, rfl, hmeaning, hahead, -⟩
  · cases hgiven
  · have hfirst : first.is "UNION" = false := hlacks first (by simp [hahead, TokenStream.toList])
    cases compound with
    | union =>
        obtain ⟨word, hword, hreads⟩ := exists_of_meaning? hmeaning
        obtain rfl : word = "UNION" := by simpa using hword
        rw [hfirst] at hreads
        cases hreads
    | intersect => cases hgiven
    | except => cases hgiven

variable [Record ρ]

/-- Uniting tells the records behind the linked rows of the later core of the columns of what was
accumulated, and does nothing else to records. -/
theorem records_unite (t other : Table) (s : Session ρ) :
    (stateAfter (unite t other) s).records
      = s.records.tellAll t.linkedRecords t.columns.length other.columns := by
  rw [← Edit.records_union]
  unfold stateAfter unite
  cases Edit.union other ⟨t, s.records⟩ <;> rfl

theorem tells_parsing : ParsesAlong (Session.TellsTo (ρ := ρ)) := by
  intro α step h s
  rw [stateAfter_parsing]
  exact refl s.records

theorem tells_unite (t other : Table) :
    Respects Session.TellsTo (unite t other : Statement ρ Table) := by
  intro s
  change s.records.Told _
  rw [records_unite]
  exact Records.told_tellAll _ _ _ _

theorem tells_select : Respects Session.TellsTo (select : Statement ρ Table) :=
  respects_tokensLeft.bind fun _ => (respects_withinBudget tells_parsing tells_unite _).1 none

/-- Behind UNION records may change, but then it was among the tokens. -/
theorem keeps_behindCore {budget : Nat} {result : Table}
    (hselect : ∀ compound, compound ≠ .union → Respects Session.KeepsTo
      (selectWithin budget (some (result, compound)) : Statement ρ Table)) :
    Respects Session.KeepsTo (behindCore budget result : Statement ρ Table) := by
  intro s
  by_cases hlacks : s.parser.ahead.Lacks "UNION"
  · refine respects_behindCore_at keeps_parsing fun compound p hp => hselect compound ?_
    rintro rfl
    exact not_lacks_of_union hp hlacks
  · have hreads : s.ReadsTo (stateAfter (behindCore budget result) s) :=
      respects_behindCore_at reads_parsing fun _ _ _ => (reads_withinBudget budget).1 _
    exact ⟨hreads.1, fun h => absurd h hlacks⟩

theorem keeps_selectWithin_succ {budget : Nat}
    (hselect : ∀ left : Option (Table × Compound), (∀ t, left ≠ some (t, .union)) →
      Respects Session.KeepsTo (selectWithin budget left : Statement ρ Table))
    (hcore : Respects Session.KeepsTo (coreWithin budget : Statement ρ Table))
    (left : Option (Table × Compound)) (hleft : ∀ t, left ≠ some (t, .union)) :
    Respects Session.KeepsTo (selectWithin (budget + 1) left : Statement ρ Table) := by
  have hcombine : ∀ core, Respects Session.KeepsTo (combine core left : Statement ρ Table) :=
    fun core => respects_combine fun other hunion => absurd hunion (hleft other)
  rw [selectWithin_succ]
  exact hcore.bind fun core => (hcombine core).bind fun result =>
    keeps_behindCore fun compound hcompound => hselect _ (by simp [hcompound])

theorem keeps_select : Respects Session.KeepsTo (select : Statement ρ Table) :=
  respects_tokensLeft.bind fun _ =>
    (respects_withinBudget_of_succ keeps_parsing (fun left => ∀ t, left ≠ some (t, .union))
      (fun t => by simp) (fun _ => keeps_selectWithin_succ) _).1 none (fun t => by simp)

/-- What a SELECT respects is respected up to the end of its statement. -/
theorem respects_complete_at {R : Session ρ → Session ρ → Prop} [IsPreorder (Session ρ) R]
    (hparse : ParsesAlong R) (hselect : Respects R (select : Statement ρ Table)) {s : Session ρ}
    {p : Parser} (hword : expectOne firstWords s.parser = .ok .select p) :
    R s (stateAfter (complete : Statement ρ Table) s) := by
  refine respects_bind_at ?_ fun t u _ =>
    (hparse movesOn_expectEnd).bind (fun _ => respects_pure t) u
  refine respects_bind_at (hparse (movesOn_expectOne _) s) fun kind t hkind => ?_
  obtain ⟨q, hq, -⟩ := parsing_eq_ok.mp hkind
  rw [hword] at hq
  cases hq
  exact hselect t

end Select

end OnePassSql

import OnePassSql.Proofs.Alike.Statement
import OnePassSql.Proofs.Alike.Trailing
import OnePassSql.Proofs.Database.Reply
import OnePassSql.Proofs.Result

/-!
ORDER BY and LIMIT never shape a result: a SELECT is answered with them as it is without them, and
leaves the same state.
-/

namespace OnePassSql

open Step

theorem TokenStream.abreast_ofText_append {sql : String} {n : Nat}
    (h : (ofText sql).ending = .done n) (hclosed : ∀ t ∈ (ofText sql).toList, t.Closed)
    (suffix : String) : Abreast (.done n) (cut (n + 1) suffix.toList) (ofText sql)
      (ofText (sql ++ " " ++ suffix)) := by
  have htext : (sql ++ " " ++ suffix).toList = sql.toList ++ ' ' :: suffix.toList := by simp
  rw [ofText, ofText, htext]
  exact (abreast_cut_append h hclosed suffix.toList).2.1

namespace Database

variable {ρ : Type} [Record ρ]

/-- Behind a SELECT whose text has no such clauses, ends nowhere before its end and leaves no quote
open, clauses that can be read there change neither the answer nor the state. -/
theorem query_of_trailing_clauses (db : Database) (records : Records ρ) (sql suffix : String)
    (params : List Value) {p : Parser} {t u : Table} {s : Session ρ} {n : Nat}
    (hselect : Parse.expectOne Statement.firstWords (.ofText sql) = .ok .select p)
    (hanswer : (db.query records sql params).answer = .ok t)
    (hrun : Statement.run ⟨.ofText sql, db.bindAll params, records⟩ = .ok u s)
    (hend : s.parser.ahead = .done n)
    (hnone : Select.NoTrailingClauses (.ofText sql))
    (hclosed : ∀ t ∈ (TokenStream.ofText sql).toList, t.Closed)
    (hclauses : Select.ReadsClauses { s.parser with ahead := .ofText suffix }) :
    db.query records (sql ++ " " ++ suffix) params = db.query records sql params := by
  obtain ⟨hopen, -⟩ := exists_run_of_answer hanswer
  have hmoves : (TokenStream.ofText sql).LeadsTo (.done n) :=
    hend ▸ Statement.leadsTo_of_run hrun
  let v := TokenStream.cut (n + 1) suffix.toList
  have hclauses' : Select.ReadsClauses { s.parser with ahead := v } := hclauses.cut (n + 1)
  have htails : TokenStream.Tails (.done n) v := hclauses'.tails n
  let sql' := sql ++ " " ++ suffix
  have hs : (⟨.ofText sql, db.bindAll params, records⟩ : Session ρ).Abreast (.done n) v
      ⟨.ofText sql', db.bindAll params, records⟩ :=
    ⟨⟨TokenStream.abreast_ofText_append hmoves.ending_eq hclosed suffix, rfl, rfl⟩, rfl, rfl⟩
  have hsame : Select.EndsSame v Statement.run
      (⟨.ofText sql, db.bindAll params, records⟩ : Session ρ)
      ⟨.ofText sql', db.bindAll params, records⟩ := by
    have hwords : Parse.ActsAlike (.done n) v (Parse.expectOne Statement.firstWords) :=
      Parse.actsAlike_expectOne htails (by decide)
    refine Select.endsSame_bind hs (Statement.runsAlike_parsing hwords)
      fun kind s₁ s₁' hkind hs₁ => ?_
    obtain ⟨q, hq, rfl⟩ := Statement.parsing_eq_ok.mp hkind
    cases hselect.symm.trans hq
    exact Select.endsSame_select htails hs₁
      (hnone.of_leadsTo ((Parse.movesOn_expectOne _).ok hselect))
  obtain ⟨s', m, hrun', hdatabase, hrecords, hend'⟩ := hsame u s n hrun hend hclauses'
  rw [query_of_ok hopen (Statement.complete_of_run hrun (Parse.expectEnd_of_done hend)),
    query_of_ok hopen (Statement.complete_of_run hrun' (Parse.expectEnd_of_done hend')),
    hdatabase, hrecords]

/-- Behind a union with a SELECT for its source; a placeholder of ORDER BY is the next one. -/
theorem query_of_trailing_clauses_union :
    standard.query (⟨[]⟩ : Records CellRecord)
        "SELECT ?, 'a b' UNION SELECT 2, 'c' FROM (SELECT 3) ORDER BY ? DESC, 2 LIMIT 1 OFFSET 2"
        [.integer 1]
      = standard.query (⟨[]⟩ : Records CellRecord)
        "SELECT ?, 'a b' UNION SELECT 2, 'c' FROM (SELECT 3)" [.integer 1] := by
  let sql := "SELECT ?, 'a b' UNION SELECT 2, 'c' FROM (SELECT 3)"
  let suffix := "ORDER BY ? DESC, 2 LIMIT 1 OFFSET 2"
  let start : Session CellRecord := ⟨.ofText sql, standard.bindAll [.integer 1], ⟨[]⟩⟩
  have hanswer : (standard.query (⟨[]⟩ : Records CellRecord) sql
      [.integer 1]).answer.toOption.isSome = true := by
    decide +kernel
  have hruns : (Statement.run.run' start).isSome = true := by decide +kernel
  have hselect : Parse.expectOne Statement.firstWords (.ofText sql) = .ok .select _ :=
    eq_ok_of_run' (by decide +kernel)
  obtain ⟨t, ht⟩ := Option.isSome_iff_exists.mp hanswer
  obtain ⟨u, hu⟩ := Option.isSome_iff_exists.mp hruns
  have hlacks : ∀ word ∈ TokenStream.clauseWords, (TokenStream.ofText sql).Lacks word := by
    unfold TokenStream.Lacks
    decide +kernel
  exact query_of_trailing_clauses standard ⟨[]⟩ sql suffix [.integer 1] hselect
    (Result.eq_ok_of_toOption ht) (eq_ok_of_run' hu) (n := 51) (by decide +kernel)
    (Select.noTrailingClauses_of_lacks hlacks) (by decide +kernel)
    ⟨_, 35, eq_ok_of_run' (by decide +kernel), by decide +kernel⟩

end Database

end OnePassSql

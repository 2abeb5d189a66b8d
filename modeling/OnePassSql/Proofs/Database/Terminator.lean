import OnePassSql.Proofs.Alike.Statement
import OnePassSql.Proofs.Database.Reply
import OnePassSql.Proofs.Token.Cutting

/-!
Nothing behind the semicolon that ends a statement is read, not even cut into tokens: another text
in its place is answered the same and leaves the same state.
-/

namespace OnePassSql

open Step

theorem TokenStream.abreast_ofText_take {sql : String} {semi : Token} {rest : TokenStream}
    (h : (ofText sql).LeadsTo (.token semi rest)) (hsemi : semi.is ";" = true) (text : String) :
    ∃ rest', Abreast (.token semi rest) (.token semi rest') (ofText sql)
      (ofText (String.ofList (sql.toList.take (semi.position + 1)) ++ text)) := by
  obtain ⟨-, rest', habreast, -⟩ := abreast_cut_take h hsemi text.toList
  refine ⟨rest', ?_⟩
  rwa [ofText, ofText, String.toList_append, String.toList_ofList]

/-- Of tokens only a semicolon ends a statement. -/
theorem Statement.is_semicolon_of_complete {ρ : Type} [Record ρ] {s s₁ s₂ : Session ρ} {t u : Table}
    {semi : Token} {rest : TokenStream} (hrun : run s = .ok u s₁)
    (hcomplete : complete s = .ok t s₂) (hahead : s₁.parser.ahead = .token semi rest) :
    semi.is ";" = true := by
  obtain ⟨_, _, hrun', hend⟩ := bind_eq_ok.mp hcomplete
  rw [hrun] at hrun'
  cases hrun'
  obtain ⟨_, _, hend, -⟩ := bind_eq_ok.mp hend
  obtain ⟨p, hp, -⟩ := parsing_eq_ok.mp hend
  rcases Parse.expectEnd_eq_ok hp with ⟨n, hdone⟩ | ⟨first, rest', htoken, hsign⟩
  · cases hahead.symm.trans hdone
  · cases hahead.symm.trans htoken
    exact hsign

namespace Database

variable {ρ : Type} [Record ρ]

/-- A statement that a semicolon ends is carried out the same with any other text behind the
semicolon, also with one that cannot be cut into tokens. -/
theorem query_of_terminated (db : Database) (records : Records ρ) (sql : String)
    (params : List Value) {t u : Table} {s : Session ρ} {semi : Token} {rest : TokenStream}
    (hanswer : (db.query records sql params).answer = .ok t)
    (hrun : Statement.run ⟨.ofText sql, db.bindAll params, records⟩ = .ok u s)
    (hahead : s.parser.ahead = .token semi rest) (text : String) :
    db.query records (String.ofList (sql.toList.take (semi.position + 1)) ++ text) params
      = db.query records sql params := by
  obtain ⟨hopen, s₂, hcomplete⟩ := exists_run_of_answer hanswer
  have hsemi : semi.is ";" = true :=
    Statement.is_semicolon_of_complete hrun hcomplete hahead
  have hmoves : (TokenStream.ofText sql).LeadsTo (.token semi rest) :=
    hahead ▸ Statement.leadsTo_of_run hrun
  obtain ⟨rest', habreast⟩ := TokenStream.abreast_ofText_take hmoves hsemi text
  let sql' := String.ofList (sql.toList.take (semi.position + 1)) ++ text
  have hs : (⟨.ofText sql, db.bindAll params, records⟩ : Session ρ).Abreast (.token semi rest)
      (.token semi rest') ⟨.ofText sql', db.bindAll params, records⟩ :=
    ⟨⟨habreast, rfl, rfl⟩, rfl, rfl⟩
  have hsame := TokenStream.WholeTails.closed rest rest' (.refl semi) (by decide) hsemi
  obtain ⟨_, s', hrun', rfl, ht⟩ :=
    ((Statement.actsAlike_run hsame).follows hs).ok hrun (hahead ▸ .refl _)
  have hahead' : s'.parser.ahead = .token semi rest' := by
    have hlast := ht.parser.ahead
    rw [hahead] at hlast
    exact hlast.eq_last
  have hend := Parse.expectEnd_of_semicolon hahead hsemi
  have hend' := Parse.expectEnd_of_semicolon hahead' hsemi
  rw [query_of_ok hopen (Statement.complete_of_run hrun hend),
    query_of_ok hopen (Statement.complete_of_run hrun' hend'), ht.database, ht.records]

/-- A trigger whose body holds semicolons of its own, and behind its end a text that has no tokens.
-/
theorem query_of_terminated_trigger :
    (TokenStream.ofText " '' #").ending = .fault '#' 4 ∧
      standard.query (⟨[]⟩ : Records CellRecord)
          "CREATE TRIGGER a DELETE ON b BEGIN DELETE; INSERT; END; '' #" []
        = standard.query (⟨[]⟩ : Records CellRecord)
          "CREATE TRIGGER a DELETE ON b BEGIN DELETE; INSERT; END; SELECT 1" [] := by
  refine ⟨by decide +kernel, ?_⟩
  let sql := "CREATE TRIGGER a DELETE ON b BEGIN DELETE; INSERT; END; SELECT 1"
  have hanswer : (standard.query (⟨[]⟩ : Records CellRecord) sql []).answer = .ok .empty := by
    decide +kernel
  have hstops : (match Statement.run (⟨.ofText sql, standard.bindAll [], ⟨[]⟩⟩ :
      Session CellRecord) with
      | .ok _ s => s.parser.ahead
      | .error _ _ => .done 0) = .token ⟨.symbol, ";", 54⟩ (.token ⟨.word, "SELECT", 56⟩
        (.token ⟨.number, "1", 63⟩ (.done 64))) := by
    decide +kernel
  cases hrun : Statement.run (⟨.ofText sql, standard.bindAll [], ⟨[]⟩⟩ : Session CellRecord) with
  | error fault s =>
      rw [hrun] at hstops
      cases hstops
  | ok u s =>
      rw [hrun] at hstops
      have htext : String.ofList (sql.toList.take 55) ++ " '' #"
          = "CREATE TRIGGER a DELETE ON b BEGIN DELETE; INSERT; END; '' #" := by
        decide +kernel
      rw [← htext]
      exact query_of_terminated standard ⟨[]⟩ sql [] hanswer hrun hstops " '' #"

end Database

end OnePassSql

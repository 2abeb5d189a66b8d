import OnePassSql.Proofs.Alike.Statement
import OnePassSql.Proofs.Database.Reply

/-!
What a query does depends on its text through the tokens alone: through their kinds and texts, and
through which of them stand side by side. Where they stand and how wide the gaps are shows only in
the positions that a fault tells and in the statement that it quotes.
-/

namespace OnePassSql

open Step

/-! ## Texts of the same layout -/

namespace TokenStream

/-- All of the text was read. -/
def Complete (s : TokenStream) : Prop := ∃ n, s.ending = .done n

/-- For each token that another one follows, whether the two stand side by side. -/
def joints : List Token → List Bool
  | [] => []
  | [_] => []
  | t :: w :: rest => decide (w.position = t.stop) :: joints (w :: rest)

/-- The streams have no lexical fault, hold tokens of the same kinds and texts, and the same
consecutive ones of them stand side by side. -/
structure SameLayout (s s' : TokenStream) : Prop where
  complete : s.Complete
  complete' : s'.Complete
  tokens : s.toList.map (fun t => (t.kind, t.text)) = s'.toList.map fun t => (t.kind, t.text)
  joints : joints s.toList = joints s'.toList

theorem SameLayout.abreast {s s' : TokenStream} (h : s.SameLayout s') :
    ∃ n n', Abreast (.done n) (.done n') s s' := by
  obtain ⟨hcomplete, hcomplete', htokens, hjoints⟩ := h
  induction s generalizing s' with
  | fault ch n =>
      obtain ⟨_, hdone⟩ := hcomplete
      cases hdone
  | done n =>
      cases s' with
      | done n' => exact ⟨n, n', .last⟩
      | token t' rest' => cases htokens
      | fault ch n' =>
          obtain ⟨_, hdone⟩ := hcomplete'
          cases hdone
  | token t rest ih =>
      cases s' with
      | done n' => cases htokens
      | fault ch n' => cases htokens
      | token t' rest' =>
          simp only [toList, List.map_cons, List.cons.injEq, Prod.mk.injEq] at htokens
          obtain ⟨⟨hkind, htext⟩, htokens⟩ := htokens
          have hrest : (rest.Adjoins t ↔ rest'.Adjoins t') ∧
              TokenStream.joints rest.toList = TokenStream.joints rest'.toList := by
            cases rest <;> cases rest' <;>
              simp_all [TokenStream.joints, toList, Adjoins, Token.IsSemicolon, Token.is]
          obtain ⟨n, n', habreast⟩ :=
            ih hcomplete (show rest'.Complete from hcomplete') htokens hrest.2
          exact ⟨n, n', .token ⟨hkind, htext⟩ hrest.1 habreast⟩

end TokenStream

/-! ## Queries -/

theorem Fault.withoutPlace_annotate {fault fault' : Fault}
    (h : fault.withoutPlace = fault'.withoutPlace) (sql sql' : String) :
    (fault.annotate sql).withoutPlace = (fault'.annotate sql').withoutPlace := by
  cases fault <;> cases fault' <;> simp_all [Fault.withoutPlace, Fault.annotate]

namespace Database

variable {ρ : Type} [Record ρ]

/-- Texts whose statements come out alike are answered the same, if the fault of the first is one
that shows. -/
theorem query_of_follows {db : Database} {records : Records ρ} {params : List Value}
    {sql sql' : String} {u v : TokenStream} (hview : (TokenStream.ofText sql).LeadsTo u)
    (hends : u.ending = u)
    (h : Follows (Session.outcomes u v) Eq
      (Statement.complete (⟨.ofText sql, db.bindAll params, records⟩ : Session ρ))
      (Statement.complete ⟨.ofText sql', db.bindAll params, records⟩))
    (hshow : db.dropped = false → ∀ fault s, Statement.complete
      (⟨.ofText sql, db.bindAll params, records⟩ : Session ρ) = .error fault s →
        TokenStream.Shows u v fault) :
    (db.query records sql params).answer.mapError Fault.withoutPlace
        = (db.query records sql' params).answer.mapError Fault.withoutPlace ∧
      (db.query records sql params).database = (db.query records sql' params).database ∧
      (db.query records sql params).records = (db.query records sql' params).records := by
  cases hdropped : db.dropped with
  | true =>
      rw [query_of_dropped hdropped, query_of_dropped hdropped]
      exact ⟨rfl, rfl, rfl⟩
  | false =>
      cases hrun : Statement.complete (⟨.ofText sql, db.bindAll params, records⟩ : Session ρ) with
      | ok t s =>
          have hmoves := Statement.leadsTo_of_complete hrun
          obtain ⟨_, s', hrun', rfl, -, hdatabase, hrecords⟩ :=
            h.ok hrun (hmoves.to_ending hends hview)
          rw [query_of_ok hdropped hrun, query_of_ok hdropped hrun', hdatabase, hrecords]
          exact ⟨rfl, rfl, rfl⟩
      | error fault s =>
          obtain ⟨fault', s', hrun', hsame, hdatabase, hrecords⟩ :=
            h.error hrun (hshow hdropped fault s hrun)
          rw [query_of_error hdropped hrun, query_of_error hdropped hrun', hdatabase, hrecords]
          exact ⟨congrArg Except.error (Fault.withoutPlace_annotate hsame sql sql'), rfl, rfl⟩

/-- Texts of the same layout are answered the same: with the same table, or with faults that differ
in their places only. They also leave the same database and the same records, in every case. -/
theorem query_of_sameLayout (db : Database) (records : Records ρ) {sql sql' : String}
    (h : (TokenStream.ofText sql).SameLayout (.ofText sql')) (params : List Value) :
    (db.query records sql params).answer.mapError Fault.withoutPlace
        = (db.query records sql' params).answer.mapError Fault.withoutPlace ∧
      (db.query records sql params).database = (db.query records sql' params).database ∧
      (db.query records sql params).records = (db.query records sql' params).records := by
  obtain ⟨n, n', habreast⟩ := h.abreast
  have hs : (⟨.ofText sql, db.bindAll params, records⟩ : Session ρ).Abreast (.done n) (.done n')
      ⟨.ofText sql', db.bindAll params, records⟩ := ⟨⟨habreast, rfl, rfl⟩, rfl, rfl⟩
  exact query_of_follows habreast.leadsTo rfl (Statement.follows_complete (.ended n n') hs)
    fun _ _ _ _ => .ended rfl rfl

/-- Signs and digits that have to stand side by side do so in both texts; the gaps between the other
tokens differ. -/
theorem query_of_sameLayout_operators :
    let sql := "SELECT -9223372036854775808, ?2 <> 1"
    let sql' := " SELECT\n\t-9223372036854775808,\n?2   <>  1 "
    (TokenStream.ofText sql).SameLayout (.ofText sql') ∧
      (standard.query (⟨[]⟩ : Records CellRecord) sql [.integer 1]).answer.mapError
          Fault.withoutPlace
        = (standard.query (⟨[]⟩ : Records CellRecord) sql' [.integer 1]).answer.mapError
          Fault.withoutPlace := by
  intro sql sql'
  have hlayout : (TokenStream.ofText sql).SameLayout (.ofText sql') :=
    ⟨⟨36, by decide +kernel⟩, ⟨42, by decide +kernel⟩, by decide +kernel, by decide +kernel⟩
  exact ⟨hlayout, (query_of_sameLayout standard ⟨[]⟩ hlayout [.integer 1]).1⟩

end Database

end OnePassSql

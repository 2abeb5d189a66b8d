import OnePassSql.Proofs.Database.Invariants

/-!
Parameters are bound for one statement. A null parameter reads as one that is not there, and what a
query does depends on nothing of the parameters that were given before it.
-/

namespace OnePassSql

namespace Bindings

theorem erase_of_lt {b : Bindings} {index : Nat} (h : ∀ entry ∈ b.entries, entry.1 < index) :
    b.erase index = b := by
  have hfilter : b.entries.filter (fun entry => entry.1 != index) = b.entries := by
    rw [List.filter_eq_self]
    intro entry hentry
    exact bne_iff_ne.mpr (Nat.ne_of_lt (h entry hentry))
  rw [erase, hfilter]

theorem bind_lt {b : Bindings} {index : Nat} (h : ∀ entry ∈ b.entries, entry.1 < index)
    (v : Value) : ∀ entry ∈ (b.bind index v).entries, entry.1 < index + 1 := by
  intro entry hentry
  rw [bind, erase_of_lt h] at hentry
  split at hentry
  · exact Nat.lt_succ_of_lt (h entry hentry)
  · rcases List.mem_cons.mp hentry with rfl | hold
    · exact Nat.lt_succ_self index
    · exact Nat.lt_succ_of_lt (h entry hold)

theorem bindFrom_of_nulls {b : Bindings} {index : Nat} {values : List Value}
    (h : ∀ entry ∈ b.entries, entry.1 < index) (hnull : ∀ v ∈ values, v = .null) :
    b.bindFrom index values = b := by
  induction values generalizing index with
  | nil => rfl
  | cons v rest ih =>
      rw [List.forall_mem_cons] at hnull
      obtain ⟨rfl, hrest⟩ := hnull
      have hsame : b.bind index .null = b := erase_of_lt h
      rw [bindFrom, hsame]
      exact ih (fun entry hentry => Nat.lt_succ_of_lt (h entry hentry)) hrest

theorem eq_null_of_getD {values : List Value}
    (h : ∀ i, ([] : List Value).getD i .null = values.getD i .null) : ∀ v ∈ values, v = .null := by
  intro v hv
  obtain ⟨i, hi⟩ := List.mem_iff_getElem?.mp hv
  have hnull := h i
  simp only [List.getD_eq_getElem?_getD, hi] at hnull
  simpa using hnull.symm

/-- Of the values only those count that are not null, and where they stand. -/
theorem bindFrom_congr {b : Bindings} {index : Nat} {values others : List Value}
    (h : ∀ entry ∈ b.entries, entry.1 < index)
    (hsame : ∀ i, values.getD i .null = others.getD i .null) :
    b.bindFrom index values = b.bindFrom index others := by
  induction values generalizing b index others with
  | nil => exact (bindFrom_of_nulls h (eq_null_of_getD hsame)).symm
  | cons v rest ih =>
      cases others with
      | nil => exact bindFrom_of_nulls h (eq_null_of_getD fun i => (hsame i).symm)
      | cons w others =>
          obtain rfl : v = w := hsame 0
          exact ih (bind_lt h v) fun i => hsame (i + 1)

end Bindings

namespace Database

variable {ρ : Type} [Record ρ]

/-- On the same database but for what is bound, a query replies the same if its parameters have the
same values. -/
theorem query_congr {db db' : Database} (h : Reachable db) (h' : Reachable db')
    (hsame : db.unbind = db'.unbind) {params params' : List Value}
    (hparams : ∀ i, params.getD i .null = params'.getD i .null) (records : Records ρ)
    (sql : String) : db.query records sql params = db'.query records sql params' := by
  have hunbound : db.unbind = db := by
    rw [unbind, ← h.bindings_eq_empty]
  have hunbound' : db'.unbind = db' := by
    rw [unbind, ← h'.bindings_eq_empty]
  obtain rfl : db = db' := hunbound.symm.trans (hsame.trans hunbound')
  have hbound : db.bindAll params = db.bindAll params' := by
    have hnone : ∀ entry ∈ db.bindings.entries, entry.1 < 0 := by
      rw [h.bindings_eq_empty]
      exact fun entry hentry => nomatch hentry
    rw [bindAll, Bindings.bindFrom_congr hnone hparams, ← bindAll]
  rw [query, query, hbound]

/-- The replies to queries, each one on the state that the one before it left. -/
def replies (db : Database) (records : Records ρ) : List (String × List Value) → List (Reply ρ)
  | [] => []
  | (sql, params) :: rest =>
    let reply := db.query records sql params
    reply :: reply.database.replies reply.records rest

/-- The queries have the same text and parameters of the same values; past its end a list of
parameters is null. -/
def AskSame (query query' : String × List Value) : Prop :=
  query.1 = query'.1 ∧ ∀ i, query.2.getD i .null = query'.2.getD i .null

/-- Two runs of queries that ask the same reply the same, answers and states, from databases that
differ in nothing but the parameters of the statements that led there. -/
theorem replies_congr {db db' : Database} (h : Reachable db) (h' : Reachable db')
    (hsame : db.unbind = db'.unbind) {queries queries' : List (String × List Value)}
    (hqueries : List.Forall₂ AskSame queries queries') (records : Records ρ) :
    db.replies records queries = db'.replies records queries' := by
  induction hqueries generalizing db db' records with
  | nil => rfl
  | @cons query query' rest rest' hfirst _ ih =>
      obtain ⟨sql, params⟩ := query
      obtain ⟨sql', params'⟩ := query'
      obtain ⟨rfl, hparams⟩ := hfirst
      have hreply := query_congr h h' hsame hparams records sql
      have hnext := h.query records sql params
      rw [replies, replies, ← hreply, ih hnext hnext rfl]

/-- The parameter of a statement that failed does not reach the next one, and a null at the end of
the parameters is as good as none. -/
theorem replies_congr_after_failure : ∃ db, Reachable db ∧
    db = (standard.query (⟨[]⟩ : Records CellRecord) "SELECT ? junk" [.integer 5]).database ∧
    db.replies (⟨[]⟩ : Records CellRecord) [("SELECT ?, ?", [.integer 1, .null])]
      = standard.replies ⟨[]⟩ [("SELECT ?, ?", [.integer 1])] ∧
    ((standard.replies (⟨[]⟩ : Records CellRecord) [("SELECT ?, ?", [.integer 1])]).map
      fun reply => reply.answer.toOption.map Table.rows) = [some [.owned [.integer 1, .null]]] := by
  have hstandard : Reachable standard := .create _ _
  have hfailed : (standard.query (⟨[]⟩ : Records CellRecord) "SELECT ? junk"
      [.integer 5]).database.unbind = standard.unbind := by
    rw [database_query_of_nothing rfl (by decide +kernel)]
    rfl
  have halike : AskSame ("SELECT ?, ?", [.integer 1, .null]) ("SELECT ?, ?", [.integer 1]) := by
    refine ⟨rfl, fun i => ?_⟩
    rcases i with _ | _ | i <;> rfl
  exact ⟨_, hstandard.query _ _ _, rfl,
    replies_congr (hstandard.query _ _ _) hstandard hfailed (.cons halike .nil) _,
    by decide +kernel⟩

end Database

end OnePassSql

import OnePassSql.Proofs.Alike.Sources
import OnePassSql.Proofs.Database.Layout
import OnePassSql.Proofs.Token.Cutting

/-!
Selections compose: a SELECT from a SELECT gives what one SELECT with both predicates gives, and a
SELECT from `SELECT *` of a table gives what it gives from the table.
-/

namespace OnePassSql

open Step TokenStream

namespace Database

variable {ρ : Type} [Record ρ] {db : Database} {records : Records ρ} {params : List Value}

/-- Selections compose. Of two tests that have values on all rows the first selects, and the second
selects out of that what their conjunction selects, whatever is projected; without a first test it
is what is selected directly. So a SELECT is answered the same, faults up to their places, with
`( SELECT * FROM name )` in the place of the name of its table. -/
theorem selections_compose :
    (∀ (records : Records ρ) (t : Table) (p q : Expr), p.isTest = true → q.isTest = true →
      (∀ row < t.rows.length, (∃ v, p.eval (t.rowScope records row) = .ok v) ∧
        ∃ v, q.eval (t.rowScope records row) = .ok v) →
      ∃ u, t.extract records none (some p) = .ok u ∧ ∀ columns,
        u.extract records columns (some q)
          = t.extract records columns (some (.binary .and p q))) ∧
    (∀ (records : Records ρ) (t : Table), ∃ u, t.extract records none none = .ok u ∧
      ∀ columns predicate,
        u.extract records columns predicate = t.extract records columns predicate) ∧
    ∀ (db : Database) (records : Records ρ) (sql sql' : String) (params : List Value)
      (name : Token) (t : Table), db.tables.get? name.name = some t →
      Select.NestsSource (db.bindAll params).bindings name (.ofText sql) (.ofText sql') →
      (db.query records sql params).answer.mapError Fault.withoutPlace
          = (db.query records sql' params).answer.mapError Fault.withoutPlace ∧
        (db.query records sql params).database = (db.query records sql' params).database ∧
        (db.query records sql params).records = (db.query records sql' params).records := by
  refine ⟨fun records t p q hp hq h => Table.exists_extract_test hp hq h,
    Table.exists_extract_rows, ?_⟩
  intro db records sql sql' params name t ht hnests
  have ht' : (db.bindAll params).tables.get? name.name = some t := ht
  obtain ⟨n, n', hview, hfollows⟩ := Select.follows_nested hnests ht' records
  exact query_of_follows hview rfl hfollows fun _ _ _ _ => .ended rfl rfl

/-- Rows of which the last one is linked to a record. -/
def pairs : Table :=
  ⟨[.plain "a" .integer, .plain "b" .integer],
    [.owned [.integer 1, .integer 5], .owned [.integer 2, .integer 3], .linked 0]⟩

/-- `SELECT a, b + 1` before a source. -/
def selecting (source : TokenStream) : TokenStream :=
  .token ⟨.word, "SELECT", 0⟩ (.token ⟨.word, "a", 7⟩ (.token ⟨.symbol, ",", 8⟩
    (.token ⟨.word, "b", 10⟩ (.token ⟨.symbol, "+", 12⟩ (.token ⟨.number, "1", 14⟩ source)))))

/-- `WHERE b < 4` at its place behind the table's name. -/
def condition : TokenStream :=
  .token ⟨.word, "WHERE", 23⟩ (.token ⟨.word, "b", 29⟩ (.token ⟨.symbol, "<", 31⟩
    (.token ⟨.number, "4", 33⟩ (.done 34))))

/-- `FROM t WHERE b < 4` -/
def fromTable : TokenStream := .token ⟨.word, "FROM", 16⟩ (.token ⟨.word, "t", 21⟩ condition)

/-- `(SELECT * FROM t) WHERE b < 4` -/
def nested : TokenStream :=
  .token ⟨.symbol, "(", 21⟩ (.token ⟨.word, "SELECT", 22⟩ (.token ⟨.symbol, "*", 29⟩
    (.token ⟨.word, "FROM", 31⟩ (.token ⟨.word, "t", 36⟩ (.token ⟨.symbol, ")", 37⟩
      (condition.shift 16))))))

theorem nestsSource_pairs (b : Bindings) : Select.NestsSource b ⟨.word, "t", 21⟩
    (.ofText "SELECT a, b + 1 FROM t WHERE b < 4")
    (.ofText "SELECT a, b + 1 FROM (SELECT * FROM t) WHERE b < 4") := by
  have hlexed : TokenStream.ofText "SELECT a, b + 1 FROM t WHERE b < 4" = selecting fromTable := by
    decide +kernel
  have hlexed' : TokenStream.ofText "SELECT a, b + 1 FROM (SELECT * FROM t) WHERE b < 4"
      = selecting (.token ⟨.word, "FROM", 16⟩ nested) := by
    decide +kernel
  have hword : Parse.expectOne Statement.firstWords ⟨selecting fromTable, 0, true⟩
      = .ok .select ⟨(selecting fromTable).tail, 0, true⟩ := eq_ok_of_run' (by decide +kernel)
  have hhead : Select.head b ⟨(selecting fromTable).tail, 0, true⟩
      = .ok (some [.column "a", .binary .add (.column "b") (.literal (.integer 1))])
        ⟨fromTable, 0, true⟩ := rfl
  have hnested : Select.Nests ⟨.word, "t", 21⟩ (condition.shift 16) nested :=
    .intro (by decide) (by decide) (by decide) (by decide) ⟨rfl, rfl⟩ (by decide)
  have hbefore : Abreast fromTable (.token ⟨.word, "FROM", 16⟩ nested) (selecting fromTable)
      (selecting (.token ⟨.word, "FROM", 16⟩ nested)) :=
    .token (.refl _) .rfl (.token (.refl _) .rfl (.token (.refl _) .rfl (.token (.refl _) .rfl
      (.token (.refl _) .rfl (.token (.refl _) .rfl .last)))))
  rw [hlexed, hlexed']
  exact .intro hword hhead rfl (by decide) (.refl _) (by decide) hnested hbefore
    (abreast_shift rfl 16)

/-- Two tests that each drop another row, one test alone, and a SELECT, on a table with a linked
row. -/
theorem selections_compose_pairs :
    let records : Records CellRecord := ⟨[⟨[.integer 3, .integer 2], false⟩]⟩
    let p : Expr := .binary .gt (.column "a") (.literal (.integer 1))
    let q : Expr := .unary .not (.binary .eq (.column "b") (.literal (.integer 3)))
    let large : Table := ⟨pairs.columns, [.owned [.integer 2, .integer 3], .linked 0]⟩
    let last : Table := ⟨[.plain "b" .integer], [.owned [.integer 2]]⟩
    let sums : Table := ⟨[.plain "a" .integer, .plain "b + 1" .integer],
      [.owned [.integer 2, .integer 4], .owned [.integer 3, .integer 3]]⟩
    let db := standard.change (.putTable "t" pairs)
    (pairs.extract records none (some p) = .ok large ∧
      large.extract records (some [.column "b"]) (some q) = .ok last ∧
      pairs.extract records (some [.column "b"]) (some (.binary .and p q)) = .ok last) ∧
    (∃ u, pairs.extract records none none = .ok u ∧
      u.extract records none (some p) = .ok large) ∧
    (db.query records "SELECT a, b + 1 FROM t WHERE b < 4" []).answer = .ok sums ∧
    (db.query records "SELECT a, b + 1 FROM (SELECT * FROM t) WHERE b < 4" []).answer
      = .ok sums := by
  intro records p q large last sums db
  obtain ⟨hboth, hall, hquery⟩ := selections_compose (ρ := CellRecord)
  have hvalues : ∀ row < pairs.rows.length,
      (∃ v, p.eval (pairs.rowScope records row) = .ok v) ∧
        ∃ v, q.eval (pairs.rowScope records row) = .ok v := by
    intro row hrow
    obtain rfl | rfl | rfl : row = 0 ∨ row = 1 ∨ row = 2 := by
      simp only [pairs, List.length_cons, List.length_nil] at hrow
      omega
    all_goals exact ⟨⟨_, rfl⟩, _, rfl⟩
  let name : Token := ⟨.word, "t", 21⟩
  have ht : db.tables.get? name.name = some pairs := by decide +kernel
  have hlarge : pairs.extract records none (some p) = .ok large := by decide +kernel
  have hlast : large.extract records (some [.column "b"]) (some q) = .ok last := by decide +kernel
  have hsums : (db.query records "SELECT a, b + 1 FROM t WHERE b < 4" []).answer = .ok sums := by
    decide +kernel
  obtain ⟨u, hu, hsame⟩ := hboth records pairs p q rfl rfl hvalues
  cases hlarge.symm.trans hu
  obtain ⟨w, hw, hsame'⟩ := hall records pairs
  have hnested := (hquery db records _ _ [] name pairs ht (nestsSource_pairs _)).1
  refine ⟨⟨hlarge, hlast, (hsame _).symm.trans hlast⟩, ⟨w, hw, (hsame' _ _).trans hlarge⟩,
    hsums, ?_⟩
  rw [hsums] at hnested
  generalize Reply.answer _ = answer at hnested ⊢
  cases answer with
  | ok t => exact hnested.symm
  | error fault => cases hnested

end Database

end OnePassSql

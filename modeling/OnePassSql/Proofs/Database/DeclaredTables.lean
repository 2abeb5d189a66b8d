import OnePassSql.Proofs.Database.Records
import OnePassSql.Proofs.Database.Reply
import OnePassSql.Proofs.Parser.Columns

/-!
What CREATE TABLE declares: the columns as they are defined in the text, whatever their types and
modifiers are and in whatever order, and nothing besides.
-/

namespace OnePassSql

open Step Parse TokenStream

/-- The end of a statement: the end of the text, or a semicolon. -/
def TokenStream.EndsStatement (s : TokenStream) : Prop := (∃ n, s = .done n) ∨ s.At [";"]

/-- The text reads as `CREATE TABLE name (…)` up to the end of the statement. What stands in the
parentheses leads from `inside` to `behind`. -/
inductive ReadsCreateTable (sql : String) (name : Token) (inside behind : TokenStream) : Prop where
  | intro {s s' : TokenStream} :
      Words ["CREATE", "TABLE"] (.ofText sql) (.token name s) → name.is "IF" = false →
      Words ["("] s inside → Words [")"] behind s' → s'.EndsStatement → ReadsCreateTable sql name inside behind

theorem ReadsCreateTable.of_tokens {sql : String} {create table name opening : Token}
    {inside : TokenStream} (closing : Token) (n : Nat) (h : TokenStream.ofText sql
      = .token create (.token table (.token name (.token opening inside))))
    (hcreate : create.is "CREATE" = true) (htable : table.is "TABLE" = true)
    (hname : name.is "IF" = false) (hopening : opening.is "(" = true)
    (hclosing : closing.is ")" = true) :
    ReadsCreateTable sql name inside (.token closing (.done n)) :=
  .intro (h ▸ .cons hcreate (.cons htable (.nil _))) hname (.cons hopening (.nil _))
    (.cons hclosing (.nil _)) (.inl ⟨n, rfl⟩)

theorem ReadsCreateTable.lexed {sql : String} {name : Token} {inside behind : TokenStream}
    (h : ReadsCreateTable sql name inside behind) : Lexed ⟨inside, 0, true⟩ := by
  obtain ⟨hwords, -, hopen, -, -⟩ := h
  have htext : InText (Parser.ofText sql) := ⟨0, _, rfl⟩
  exact htext.lexed.of_leadsTo (hwords.leadsTo.trans (.token _ hopen.leadsTo))

variable {ρ : Type}

namespace Statement

theorem lift_of_takes {α : Type} {step : Parse α} {s s' : TokenStream} {a : α}
    (h : Takes step s a s') (cursor : Nat) (suffixes : Bool) (db : Database)
    (records : Records ρ) :
    (liftM step : Statement ρ α) ⟨⟨s, cursor, suffixes⟩, db, records⟩
      = .ok a ⟨⟨s', cursor, suffixes⟩, db, records⟩ :=
  Select.lift_apply (h cursor suffixes) db records

/-- Behind its name and the parenthesis a table is made of the columns that are read. -/
theorem createTable_of_takes {name : Token} {s inside behind s' : TokenStream}
    {columns : List Column} (hname : name.is "IF" = false) (hopen : Words ["("] s inside)
    (hclose : Words [")"] behind s') (db : Database) (records : Records ρ)
    (hcolumns : ∀ budget, inside.length < budget →
      Takes (definitions db.bindings budget) inside columns behind)
    (hnew : db.tables.get? name.name = none) :
    createTable (ρ := ρ) ⟨⟨.token name s, 0, true⟩, db, records⟩
      = .ok ⟨⟩ ⟨⟨s', 0, true⟩, db.change (.putTable name.name ⟨columns, []⟩), records⟩ := by
  have hreplace : Takes (ifExists true) (.token name s) false (.token name s) := by
    have hnot : Takes (accept "IF") (.token name s) false (.token name s) :=
      fun _ _ => accept_of_not_is rfl hname
    exact hnot.bind (takes_pure _ _)
  have hleft : tokensLeft (ρ := ρ) ⟨⟨inside, 0, true⟩, db, records⟩ = .ok inside.length _ := rfl
  rw [createTable, bind_apply_ok (lift_of_takes hreplace 0 true db records),
    bind_apply_ok (lift_of_takes (takes_expectName name s) 0 true db records),
    bind_apply_ok (lift_of_takes (takes_expect hopen) 0 true db records),
    bind_apply_ok (bindings_apply _), bind_apply_ok hleft,
    bind_apply_ok (lift_of_takes (hcolumns _ (Nat.lt_succ_self _)) 0 true db records),
    bind_apply_ok (lift_of_takes (takes_expect hclose) 0 true db records)]
  have hmissing : db.tables.contains name.name = false := by simp [NameMap.contains, hnew]
  rw [bind_apply_ok (get_apply _)]
  dsimp only
  rw [hmissing]
  rfl

end Statement

namespace Database

variable [Record ρ] {sql : String} {name : Token} {inside behind : TokenStream}

/-- Columns that are read in the parentheses are the table's. -/
theorem query_create_of_takes (db : Database) (records : Records ρ) (params : List Value)
    (hopen : db.dropped = false) (hsql : ReadsCreateTable sql name inside behind)
    {columns : List Column} (hcolumns : ∀ budget, inside.length < budget →
      Takes (definitions (db.bindAll params).bindings budget) inside columns behind)
    (hnew : db.tables.get? name.name = none) :
    db.query records sql params = ⟨.ok .empty, { db with
      tables := db.tables.insert name.name ⟨columns, []⟩, bindings := .empty }, records⟩ := by
  obtain @⟨s, s', hwords, hname, hparenthesis, hclose, hend⟩ := hsql
  have htable := Statement.createTable_of_takes hname hparenthesis hclose (db.bindAll params)
    records hcolumns hnew
  let created : Session ρ := ⟨⟨s', 0, true⟩,
    (db.bindAll params).change (.putTable name.name ⟨columns, []⟩), records⟩
  have hrun : Statement.run ⟨.ofText sql, db.bindAll params, records⟩ = .ok .empty created := by
    obtain ⟨atTable, hcreate, htableWord⟩ := hwords.exists_of_cons
    have hfirst : Takes (expectOne Statement.firstWords) _ StatementKind.create atTable :=
      takes_expectOne hcreate (by decide)
    have hlasting : Takes (acceptOne? (plainWords ["TEMP", "TEMPORARY"])) atTable none atTable :=
      takes_acceptOne?_of_at htableWord.at (by decide)
    have hobject : Takes (expectOne [("TABLE", ObjectKind.table), ("TRIGGER", .trigger),
        ("INDEX", .index), ("UNIQUE", .uniqueIndex), ("VIEW", .view)]) atTable .table _ :=
      takes_expectOne htableWord (by decide)
    have hcreated : Statement.create ⟨⟨atTable, 0, true⟩, db.bindAll params, records⟩
        = .ok ⟨⟩ created := by
      rw [Statement.create,
        bind_apply_ok (Statement.lift_of_takes hlasting 0 true (db.bindAll params) records),
        bind_apply_ok (Statement.lift_of_takes hobject 0 true (db.bindAll params) records)]
      exact htable
    rw [Parser.ofText, Statement.run,
      bind_apply_ok (Statement.lift_of_takes hfirst 0 true (db.bindAll params) records)]
    exact bind_apply_ok hcreated _
  obtain ⟨p, hlast⟩ : ∃ p, expectEnd ⟨s', 0, true⟩ = .ok ⟨⟩ p := by
    rcases hend with ⟨n, rfl⟩ | ⟨word, hmem, s'', hsign⟩
    · exact ⟨_, expectEnd_of_done rfl⟩
    · cases List.mem_singleton.mp hmem
      cases hsign with
      | cons his _ => exact ⟨_, expectEnd_of_semicolon rfl his⟩
  exact query_of_ok hopen (Statement.complete_of_run hrun hlast)

/-- A table is made with exactly the columns that the text defines, in their order, each with the
type that is named, with all the constraints that its modifiers say and with the last of its
defaults, however many modifiers there are and however they are ordered. Nothing else changes. -/
theorem query_create_of_defines (db : Database) (records : Records ρ) (params : List Value)
    (hopen : db.dropped = false) (hsql : ReadsCreateTable sql name inside behind)
    {columns : List Column} (hcolumns : DefinesColumns inside columns behind)
    (hnew : db.tables.get? name.name = none) :
    db.query records sql params = ⟨.ok .empty, { db with
      tables := db.tables.insert name.name ⟨columns, []⟩, bindings := .empty }, records⟩ := by
  have hlexed := hsql.lexed
  have hclosed : behind.At [")"] := by
    obtain ⟨-, -, -, hclose, -⟩ := hsql
    exact hclose.at
  exact query_create_of_takes db records params hopen hsql
    (fun _ hbudget => takes_definitions _ hcolumns hclosed hlexed hbudget) hnew

/-- The first column has no type, and a modifier behind its default. Of the two defaults of the
second the last counts, and it is brought to the type. -/
theorem query_create_of_defines_modifiers :
    ∃ inside behind, ReadsCreateTable
        "CREATE TABLE g (a DEFAULT -5 NOT NULL, b VARCHAR(9) DEFAULT 'x' DEFAULT 7, UNIQUE (a))"
        ⟨.word, "g", 13⟩ inside behind ∧
      DefinesColumns inside [⟨"a", .none, ⟨true, false, false⟩, .text "-5", 0⟩,
        ⟨"b", .text, .empty, .text "7", 0⟩] behind ∧
      standard.query (⟨[]⟩ : Records CellRecord)
        "CREATE TABLE g (a DEFAULT -5 NOT NULL, b VARCHAR(9) DEFAULT 'x' DEFAULT 7, UNIQUE (a))" []
        = ⟨.ok .empty, { standard with
            tables := standard.tables.insert "g" ⟨[
              ⟨"a", .none, ⟨true, false, false⟩, .text "-5", 0⟩,
              ⟨"b", .text, .empty, .text "7", 0⟩], []⟩,
            bindings := .empty }, ⟨[]⟩⟩ := by
  let a : Column := ⟨"a", .none, ⟨true, false, false⟩, .text "-5", 0⟩
  let b : Column := ⟨"b", .text, .empty, .text "7", 0⟩
  let behind : TokenStream := .token ⟨.symbol, ")", 85⟩ (.done 86)
  let atClose : TokenStream := .token ⟨.symbol, ")", 84⟩ behind
  let atUnique : TokenStream := .token ⟨.word, "UNIQUE", 75⟩ (.token ⟨.symbol, "(", 82⟩
    (.token ⟨.word, "a", 83⟩ atClose))
  let atDefaults : TokenStream := .token ⟨.word, "DEFAULT", 52⟩ (.token ⟨.string, "'x'", 60⟩
    (.token ⟨.word, "DEFAULT", 64⟩ (.token ⟨.number, "7", 72⟩ (.token ⟨.symbol, ",", 73⟩
      atUnique))))
  let atSecond : TokenStream := .token ⟨.word, "b", 39⟩ (.token ⟨.word, "VARCHAR", 41⟩
    (.token ⟨.symbol, "(", 48⟩ (.token ⟨.number, "9", 49⟩ (.token ⟨.symbol, ")", 50⟩ atDefaults))))
  let inside : TokenStream := .token ⟨.word, "a", 16⟩ (.token ⟨.word, "DEFAULT", 18⟩
    (.token ⟨.symbol, "-", 26⟩ (.token ⟨.number, "5", 27⟩ (.token ⟨.word, "NOT", 29⟩
      (.token ⟨.word, "NULL", 33⟩ (.token ⟨.symbol, ",", 37⟩ atSecond))))))
  have hlexed : TokenStream.ofText
      "CREATE TABLE g (a DEFAULT -5 NOT NULL, b VARCHAR(9) DEFAULT 'x' DEFAULT 7, UNIQUE (a))"
      = .token ⟨.word, "CREATE", 0⟩ (.token ⟨.word, "TABLE", 7⟩ (.token ⟨.word, "g", 13⟩
          (.token ⟨.symbol, "(", 15⟩ inside))) := by
    decide +kernel
  have hsql := ReadsCreateTable.of_tokens ⟨.symbol, ")", 85⟩ 86 hlexed (by decide)
    (by decide) (by decide) (by decide) (by decide)
  have hsaid : SaysModifiers inside.tail [⟨.empty, some (.integer (-5))⟩,
      ⟨⟨true, false, false⟩, none⟩] (.token ⟨.symbol, ",", 37⟩ atSecond) :=
    .cons (.default (.cons (by decide) (.nil _)) (.negated (by decide) ⟨rfl, rfl, by decide⟩))
      (.cons (.notNull (.cons (by decide) (.cons (by decide) (.nil _))) (.inl rfl)) (.nil _))
  have hfirst : DefinesColumn inside a _ :=
    .intro rfl (by decide) (by decide) (.absent _) hsaid (by decide)
  have hdefaults : SaysModifiers atDefaults [⟨.empty, some (.text "x")⟩,
      ⟨.empty, some (.integer 7)⟩] (.token ⟨.symbol, ",", 73⟩ atUnique) :=
    .cons (.default (.cons (by decide) (.nil _)) (.text rfl))
      (.cons (.default (.cons (by decide) (.nil _)) (.number ⟨rfl, rfl, by decide⟩)) (.nil _))
  have hsecond : DefinesColumn atSecond b _ :=
    .intro rfl (by decide) (by decide) (.sized (.cons (by decide) (.cons (by decide) (.nil _)))
      ⟨rfl, rfl, by decide⟩ (.cons (by decide) (.nil _))) hdefaults (by decide)
  have hindexed : IndexedColumns (.token ⟨.symbol, "(", 82⟩ (.token ⟨.word, "a", 83⟩ atClose))
      behind :=
    ⟨_, atClose, .cons (by decide) (.nil _), .last ⟨_, _, _, rfl, .inl rfl, .inl rfl⟩,
      .cons (by decide) (.nil _)⟩
  have hconstraint : TableConstraint atUnique behind :=
    ⟨["UNIQUE"], by decide, _, _, _, .inl rfl, .cons (by decide) (.nil _), hindexed, .inl rfl⟩
  have hcolumns : DefinesColumns inside [a, b] behind :=
    .more hfirst (.cons (by decide) (.nil _)) (.last hsecond
      (.cons (.cons (by decide) (.nil _)) hconstraint (.nil _)))
  exact ⟨inside, behind, hsql, hcolumns,
    query_create_of_defines standard ⟨[]⟩ [] rfl hsql hcolumns (by decide)⟩

/-- The type of a column is decided by the word behind its name alone, unless that word is the name
once more: a name that is repeated is passed over, and then there is no type. -/
theorem query_create_of_type_word (db : Database) (records : Records ρ) (params : List Value)
    (hopen : db.dropped = false) {column word : Token}
    (hsql : ReadsCreateTable sql name (.token column (.token word behind)) behind)
    (hcolumn : column.kind = .word)
    (hreserved : ∀ start ∈ constraintStarts, column.is start = false) (hword : word.kind = .word)
    (hmodifier : ∀ start ∈ modifierStarts, word.is start = false)
    (hnew : db.tables.get? name.name = none) :
    db.query records sql params = ⟨.ok .empty, { db with
      tables := db.tables.insert name.name ⟨[⟨column.text,
        if word.is column.text then .none else declaredType word.text, .empty, .null, 0⟩], []⟩,
      bindings := .empty }, records⟩ := by
  have hlexed := hsql.lexed
  have hclosed : behind.At [")"] := by
    obtain ⟨-, -, -, hclose, -⟩ := hsql
    exact hclose.at
  have hlist : behind.At listEnds := hclosed.mono (by decide)
  have hends : behind.At definitionEnds := hlist.mono (List.subset_append_right _ _)
  have hname : column.name = column.text := by rw [Token.name, Token.unquoted, hcolumn]
  have hwords : Lexed ⟨.token word behind, 0, true⟩ := hlexed.of_leadsTo (.token _ (.refl _))
  have hbehind : Lexed ⟨behind, 0, true⟩ := hwords.of_leadsTo (.token _ (.refl _))
  let type := if word.is column.text then .none else declaredType word.text
  have hread : Takes (columnDefinition (db.bindAll params).bindings)
      (.token column (.token word behind)) ⟨column.name, type, allFlags [], .null, 0⟩ behind := by
    cases hrepeated : word.is column.text with
    | true =>
        have htype : type = .none := by simp only [type, hrepeated, if_true]
        have htaken : Takes (accept column.name) (.token word behind) true behind :=
          takes_accept (.cons (hname.symm ▸ hrepeated) (.nil _))
        rw [htype]
        exact takes_columnDefinition _ htaken (takes_columnType_absent hends) (.nil _) hlist
          hbehind rfl
    | false =>
        have htype : type = declaredType word.text := by
          simp only [type, hrepeated, Bool.false_eq_true, if_false]
        have hother : Takes (accept column.name) (.token word behind) false (.token word behind) :=
          fun _ _ => accept_of_not_is rfl (hname.symm ▸ hrepeated)
        have hnot : ∀ start ∈ definitionEnds, word.is start = false := by
          have hcomma : word.is "," = false := hwords.not_is rfl rfl (by rw [hword]; decide)
          have hclose : word.is ")" = false := hwords.not_is rfl rfl (by rw [hword]; decide)
          simpa [definitionEnds, listEnds, or_imp, forall_and, hcomma, hclose] using hmodifier
        rw [htype]
        exact takes_columnDefinition _ hother (takes_columnType hnot hends) (.nil _) hlist
          hbehind rfl
  rw [hname] at hread
  refine query_create_of_takes db records params hopen hsql (fun budget hbudget => ?_) hnew
  obtain ⟨budget, rfl⟩ : ∃ n, budget = n + 1 := ⟨budget - 1, by omega⟩
  exact (takes_tableConstraint_of_not hreserved _).bind (hread.bind
    ((takes_accept_of_at hclosed (by decide)).bind (takes_pure _ _)))

/-- The name `text` does not make the word INT behind it a text type. -/
theorem query_create_of_type_word_text :
    ReadsCreateTable "CREATE TABLE g (text int)" ⟨.word, "g", 13⟩
        (.token ⟨.word, "text", 16⟩ (.token ⟨.word, "int", 21⟩
          (.token ⟨.symbol, ")", 24⟩ (.done 25))))
        (.token ⟨.symbol, ")", 24⟩ (.done 25)) ∧
      standard.query (⟨[]⟩ : Records CellRecord) "CREATE TABLE g (text int)" [] = ⟨.ok .empty,
        { standard with
          tables := standard.tables.insert "g" ⟨[.plain "text" .integer], []⟩,
          bindings := .empty }, ⟨[]⟩⟩ := by
  have hlexed : TokenStream.ofText "CREATE TABLE g (text int)" = .token ⟨.word, "CREATE", 0⟩
      (.token ⟨.word, "TABLE", 7⟩ (.token ⟨.word, "g", 13⟩ (.token ⟨.symbol, "(", 15⟩
        (.token ⟨.word, "text", 16⟩ (.token ⟨.word, "int", 21⟩ (.token ⟨.symbol, ")", 24⟩
          (.done 25))))))) := by
    decide +kernel
  have hsql := ReadsCreateTable.of_tokens ⟨.symbol, ")", 24⟩ 25 hlexed (by decide)
    (by decide) (by decide) (by decide) (by decide)
  exact ⟨hsql, query_create_of_type_word standard ⟨[]⟩ [] rfl hsql rfl (by decide) rfl (by decide)
    (by decide)⟩

/-- The word behind the name does not always decide: `text TEXT` has no type. -/
theorem not_query_create_of_type_word :
    ¬∀ (db : Database) (records : Records CellRecord) (params : List Value) (sql : String)
        (name column word : Token) (behind : TokenStream), db.dropped = false →
        ReadsCreateTable sql name (.token column (.token word behind)) behind →
        column.kind = .word →
        (∀ start ∈ constraintStarts ++ modifierStarts, column.is start = false) →
        word.kind = .word → (∀ start ∈ modifierStarts, word.is start = false) →
        db.tables.get? name.name = none →
        ((db.query records sql params).database.tables.get? name.name).map
          (fun t => t.columns.map Column.type) = some [declaredType word.text] := by
  intro h
  have hlexed : TokenStream.ofText "CREATE TABLE g (text TEXT)" = .token ⟨.word, "CREATE", 0⟩
      (.token ⟨.word, "TABLE", 7⟩ (.token ⟨.word, "g", 13⟩ (.token ⟨.symbol, "(", 15⟩
        (.token ⟨.word, "text", 16⟩ (.token ⟨.word, "TEXT", 21⟩ (.token ⟨.symbol, ")", 25⟩
          (.done 26))))))) := by
    decide +kernel
  have hsql := ReadsCreateTable.of_tokens ⟨.symbol, ")", 25⟩ 26 hlexed (by decide)
    (by decide) (by decide) (by decide) (by decide)
  have htype := h standard ⟨[]⟩ [] _ _ _ _ _ rfl hsql rfl (by decide) rfl (by decide) (by decide)
  have hnone : ((standard.query (⟨[]⟩ : Records CellRecord) "CREATE TABLE g (text TEXT)"
      []).database.tables.get? "g").map (fun t => t.columns.map Column.type) = some [.none] := by
    decide +kernel
  rw [Token.name, Token.unquoted, hnone] at htype
  exact absurd htype (by decide)

end Database

end OnePassSql

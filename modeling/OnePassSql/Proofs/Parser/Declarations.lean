import OnePassSql.Proofs.Parser.Chains
import OnePassSql.Statement.CreateTable

/-!
The definitions of columns as they stand in a text. Where a part of one ends is decided by the token
behind it, so each part is read for every text behind it that starts with a word of those that can
follow.
-/

namespace OnePassSql

namespace TokenStream

/-! ## What stands in a text -/

/-- From the first stream the words lead to the second, each in any case. -/
inductive Words : List String → TokenStream → TokenStream → Prop where
  | nil (s : TokenStream) : Words [] s s
  | cons {word : String} {words : List String} {t : Token} {s s' : TokenStream} :
      t.is word = true → Words words s s' → Words (word :: words) (.token t s) s'

/-- One of the words is next. -/
def At (words : List String) (s : TokenStream) : Prop :=
  ∃ word ∈ words, ∃ s', Words [word] s s'

/-- From the first stream the form leads to the second, or nothing does. -/
def Perhaps (form : TokenStream → TokenStream → Prop) (s s' : TokenStream) : Prop :=
  s = s' ∨ form s s'

/-- From the first stream forms with commas between them lead to the second. -/
inductive Separated (form : TokenStream → TokenStream → Prop) :
    TokenStream → TokenStream → Prop where
  | last {s s' : TokenStream} : form s s' → Separated form s s'
  | more {s s₁ s₂ s' : TokenStream} :
      form s s₁ → Words [","] s₁ s₂ → Separated form s₂ s' → Separated form s s'

/-- `ON CONFLICT action` -/
def Conflict (s s' : TokenStream) : Prop :=
  ∃ action ∈ Parse.conflictActions, Words ["ON", "CONFLICT", action] s s'

/-- `ASC` or `DESC` -/
def Direction (s s' : TokenStream) : Prop := ∃ word ∈ ["ASC", "DESC"], Words [word] s s'

/-- The names of collations. -/
def collations : List String := ["BINARY", "NOCASE", "RTRIM", "LOCALIZED", "UNICODE"]

/-- `COLLATE name` -/
def Collation (s s' : TokenStream) : Prop := ∃ name ∈ collations, Words ["COLLATE", name] s s'

/-- `CONSTRAINT name` -/
def Naming (s s' : TokenStream) : Prop := ∃ name, Words ["CONSTRAINT"] s (.token name s')

/-- `name [COLLATE name] [ASC|DESC]` -/
def IndexedColumn (s s' : TokenStream) : Prop :=
  ∃ name s₁ s₂, s = .token name s₁ ∧ Perhaps Collation s₁ s₂ ∧ Perhaps Direction s₂ s'

/-- `(column, …)` -/
def IndexedColumns (s s' : TokenStream) : Prop :=
  ∃ s₁ s₂, Words ["("] s s₁ ∧ Separated IndexedColumn s₁ s₂ ∧ Words [")"] s₂ s'

/-- A number that fits 64 bits. -/
def Numeral (t : Token) (n : Nat) : Prop :=
  t.kind = .number ∧ Binary64.digitsValue t.text.toList = n ∧ n < Nat.pow 2 63

/-- From the first stream a number, a negated number, NULL or a text leads to the second; and its
value. The least integer is a negated number, though its digits fit only with their sign. -/
inductive Literal : TokenStream → Value → TokenStream → Prop where
  | number {t : Token} {n : Nat} {s : TokenStream} :
      Numeral t n → Literal (.token t s) (.integer (Int64.ofNat n)) s
  | negated {minus t : Token} {n : Nat} {s : TokenStream} :
      minus.is "-" = true → Numeral t n →
      Literal (.token minus (.token t s)) (.integer (-Int64.ofNat n)) s
  | least {minus t : Token} {s : TokenStream} :
      minus.is "-" = true → Parse.SpellsLeast minus t →
      Literal (.token minus (.token t s)) (.integer Int64.minValue) s
  | null {s s' : TokenStream} : Words ["NULL"] s s' → Literal s .null s'
  | text {t : Token} {s : TokenStream} :
      t.kind = .string → Literal (.token t s) (.text t.unquoted) s

/-- What a modifier says of its column: what it adds to the constraints, and the default that it
gives. -/
structure Said where
  flags : ColumnFlags
  default : Option Value

/-- It says nothing that is kept. -/
def Said.nothing : Said := ⟨.empty, none⟩

/-- From the first stream a modifier leads to the second; and what it says. -/
inductive SaysModifier : TokenStream → Said → TokenStream → Prop where
  | notNull {s s₁ s' : TokenStream} :
      Words ["NOT", "NULL"] s s₁ → Perhaps Conflict s₁ s' →
      SaysModifier s ⟨⟨true, false, false⟩, none⟩ s'
  | null {s s' : TokenStream} : Words ["NULL"] s s' → SaysModifier s .nothing s'
  | primaryKey {s s₁ s₂ s' : TokenStream} :
      Words ["PRIMARY", "KEY"] s s₁ → Perhaps Direction s₁ s₂ → Perhaps Conflict s₂ s' →
      SaysModifier s ⟨⟨false, true, false⟩, none⟩ s'
  | automaticKey {s s₁ s₂ s₃ s' : TokenStream} :
      Words ["PRIMARY", "KEY"] s s₁ → Perhaps Direction s₁ s₂ → Perhaps Conflict s₂ s₃ →
      Words ["AUTOINCREMENT"] s₃ s' → SaysModifier s ⟨⟨false, true, true⟩, none⟩ s'
  | unique {s s₁ s' : TokenStream} :
      Words ["UNIQUE"] s s₁ → Perhaps Conflict s₁ s' → SaysModifier s .nothing s'
  | default {s s₁ s' : TokenStream} {v : Value} :
      Words ["DEFAULT"] s s₁ → Literal s₁ v s' → SaysModifier s ⟨.empty, some v⟩ s'
  | references {s s₁ s' : TokenStream} {table : Token} :
      Words ["REFERENCES"] s (.token table s₁) → Perhaps IndexedColumns s₁ s' →
      SaysModifier s .nothing s'
  | collate {s s' : TokenStream} : Collation s s' → SaysModifier s .nothing s'
  | constraint {s s' : TokenStream} : Naming s s' → SaysModifier s .nothing s'

/-- From the first stream modifiers lead to the second; and what they say. -/
inductive SaysModifiers : TokenStream → List Said → TokenStream → Prop where
  | nil (s : TokenStream) : SaysModifiers s [] s
  | cons {s s₁ s' : TokenStream} {said : Said} {more : List Said} :
      SaysModifier s said s₁ → SaysModifiers s₁ more s' → SaysModifiers s (said :: more) s'

/-- All constraints that are said. -/
def allFlags (said : List Said) : ColumnFlags :=
  ⟨said.any (·.flags.notNull), said.any (·.flags.primaryKey), said.any (·.flags.autoIncrement)⟩

/-- The default that is said last, null if none is said. -/
def lastDefault (said : List Said) : Value := (said.filterMap Said.default).getLastD .null

/-- From the first stream INTEGER, TEXT, VARCHAR with a size, BLOB or REAL leads to the second, or
nothing; and the type that it stands for. -/
inductive SaysType : TokenStream → ColumnType → TokenStream → Prop where
  | absent (s : TokenStream) : SaysType s .none s
  | word {word : String} {type : ColumnType} {s s' : TokenStream} :
      (word, type) ∈ [("INTEGER", .integer), ("TEXT", .text), ("BLOB", .none), ("REAL", .real)] →
      Words [word] s s' → SaysType s type s'
  | sized {size : Token} {n : Nat} {s s₁ s' : TokenStream} :
      Words ["VARCHAR", "("] s (.token size s₁) → Numeral size n → Words [")"] s₁ s' →
      SaysType s .text s'

/-- The words that modifiers start with. -/
def modifierStarts : List String := Parse.modifierWords.map Prod.fst

/-- The words that constraints of the table start with. -/
def constraintStarts : List String := ["CONSTRAINT", "PRIMARY", "UNIQUE"]

/-- What stands behind a column of an index, or behind a column that is defined. -/
def listEnds : List String := [",", ")"]

/-- What can stand behind a part of a column. -/
def definitionEnds : List String := modifierStarts ++ listEnds

/-- From the first stream `name [type] modifier…` leads to the second; and the column that it
defines. The name starts no modifier, and the token behind it does not repeat it. -/
inductive DefinesColumn : TokenStream → Column → TokenStream → Prop where
  | intro {name next : Token} {s s₁ s' : TokenStream} {type : ColumnType} {said : List Said}
      {default : Value} :
      name.kind = .word → (∀ word ∈ modifierStarts, name.is word = false) →
      next.is name.text = false → SaysType (.token next s) type s₁ → SaysModifiers s₁ said s' →
      (lastDefault said).coerce type = .ok default →
      DefinesColumn (.token name (.token next s)) ⟨name.text, type, allFlags said, default, 0⟩ s'

/-- From the first stream `[CONSTRAINT name] PRIMARY KEY (column, …) [ON CONFLICT action]` leads to
the second, or the same with UNIQUE. -/
def TableConstraint (s s' : TokenStream) : Prop :=
  ∃ words ∈ [["PRIMARY", "KEY"], ["UNIQUE"]], ∃ s₁ s₂ s₃, Perhaps Naming s s₁ ∧ Words words s₁ s₂ ∧
    IndexedColumns s₂ s₃ ∧ Perhaps Conflict s₃ s'

/-- From the first stream constraints of the table, each behind a comma, lead to the second. -/
inductive TableConstraints : TokenStream → TokenStream → Prop where
  | nil (s : TokenStream) : TableConstraints s s
  | cons {s s₁ s₂ s' : TokenStream} :
      Words [","] s s₁ → TableConstraint s₁ s₂ → TableConstraints s₂ s' → TableConstraints s s'

/-- From the first stream definitions of columns with commas between them, and behind them
constraints of the table, lead to the second; and the columns. -/
inductive DefinesColumns : TokenStream → List Column → TokenStream → Prop where
  | last {s s₁ s' : TokenStream} {c : Column} :
      DefinesColumn s c s₁ → TableConstraints s₁ s' → DefinesColumns s [c] s'
  | more {s s₁ s₂ s' : TokenStream} {c : Column} {cs : List Column} :
      DefinesColumn s c s₁ → Words [","] s₁ s₂ → DefinesColumns s₂ cs s' →
      DefinesColumns s (c :: cs) s'

/-! ## What is taken -/

/-- The second stream is what is left of the first when a token or more has been taken. -/
def Beyond (s s' : TokenStream) : Prop := ∃ t rest, s = .token t rest ∧ rest.LeadsTo s'

section Beyond

variable {s s₁ s' : TokenStream} {words : List String} {word : String}
  {form : TokenStream → TokenStream → Prop}

theorem Beyond.leadsTo (h : s.Beyond s') : s.LeadsTo s' := by
  obtain ⟨t, rest, rfl, hrest⟩ := h
  exact .token t hrest

theorem Beyond.length_lt (h : s.Beyond s') : s'.length < s.length := by
  obtain ⟨t, rest, rfl, hrest⟩ := h
  exact Nat.lt_succ_of_le hrest.length_le

theorem Beyond.trans_leadsTo (h : s.Beyond s₁) (h' : s₁.LeadsTo s') : s.Beyond s' := by
  obtain ⟨t, rest, rfl, hrest⟩ := h
  exact ⟨t, rest, rfl, hrest.trans h'⟩

theorem Words.leadsTo (h : Words words s s') : s.LeadsTo s' := by
  induction h with
  | nil s => exact .refl s
  | cons _ _ ih => exact .token _ ih

theorem Words.exists_of_cons (h : Words (word :: words) s s') :
    ∃ s₁, Words [word] s s₁ ∧ Words words s₁ s' := by
  cases h with
  | cons his h => exact ⟨_, .cons his (.nil _), h⟩

theorem Words.beyond (h : Words (word :: words) s s') : s.Beyond s' := by
  cases h with
  | cons _ h => exact ⟨_, _, rfl, h.leadsTo⟩

theorem Perhaps.leadsTo (h : Perhaps form s s') (hform : ∀ {s s'}, form s s' → s.Beyond s') :
    s.LeadsTo s' := by
  rcases h with rfl | h
  · exact .refl s
  · exact (hform h).leadsTo

theorem Separated.beyond (h : Separated form s s') (hform : ∀ {s s'}, form s s' → s.Beyond s') :
    s.Beyond s' := by
  induction h with
  | last h => exact hform h
  | more h hcomma _ ih => exact (hform h).trans_leadsTo (hcomma.leadsTo.trans ih.leadsTo)

theorem Conflict.beyond (h : Conflict s s') : s.Beyond s' := by
  obtain ⟨action, -, hwords⟩ := h
  exact hwords.beyond

theorem Direction.beyond (h : Direction s s') : s.Beyond s' := by
  obtain ⟨word, -, hword⟩ := h
  exact hword.beyond

theorem Collation.beyond (h : Collation s s') : s.Beyond s' := by
  obtain ⟨name, -, hwords⟩ := h
  exact hwords.beyond

theorem Naming.beyond (h : Naming s s') : s.Beyond s' := by
  obtain ⟨name, hword⟩ := h
  exact hword.beyond.trans_leadsTo (.token name (.refl s'))

theorem IndexedColumn.beyond (h : IndexedColumn s s') : s.Beyond s' := by
  obtain ⟨name, s₁, s₂, rfl, hcollation, hdirection⟩ := h
  exact ⟨name, s₁, rfl, (hcollation.leadsTo Collation.beyond).trans
    (hdirection.leadsTo Direction.beyond)⟩

theorem IndexedColumns.beyond (h : IndexedColumns s s') : s.Beyond s' := by
  obtain ⟨s₁, s₂, hopen, hcolumns, hclose⟩ := h
  exact hopen.beyond.trans_leadsTo
    ((hcolumns.beyond IndexedColumn.beyond).leadsTo.trans hclose.leadsTo)

theorem Literal.beyond {v : Value} (h : Literal s v s') : s.Beyond s' := by
  cases h with
  | number _ => exact ⟨_, _, rfl, .refl _⟩
  | negated _ _ => exact ⟨_, _, rfl, .token _ (.refl _)⟩
  | least _ _ => exact ⟨_, _, rfl, .token _ (.refl _)⟩
  | null h => exact h.beyond
  | text _ => exact ⟨_, _, rfl, .refl _⟩

theorem SaysModifier.beyond {said : Said} (h : SaysModifier s said s') : s.Beyond s' := by
  cases h with
  | notNull hwords hconflict =>
      exact hwords.beyond.trans_leadsTo (hconflict.leadsTo Conflict.beyond)
  | null hword => exact hword.beyond
  | primaryKey hwords hdirection hconflict =>
      exact hwords.beyond.trans_leadsTo
        ((hdirection.leadsTo Direction.beyond).trans (hconflict.leadsTo Conflict.beyond))
  | automaticKey hwords hdirection hconflict hautomatic =>
      exact hwords.beyond.trans_leadsTo ((hdirection.leadsTo Direction.beyond).trans
        ((hconflict.leadsTo Conflict.beyond).trans hautomatic.leadsTo))
  | unique hword hconflict =>
      exact hword.beyond.trans_leadsTo (hconflict.leadsTo Conflict.beyond)
  | default hword hliteral => exact hword.beyond.trans_leadsTo hliteral.beyond.leadsTo
  | references hword hcolumns =>
      exact hword.beyond.trans_leadsTo (.token _ (hcolumns.leadsTo IndexedColumns.beyond))
  | collate h => exact h.beyond
  | constraint h => exact h.beyond

theorem SaysModifiers.leadsTo {said : List Said} (h : SaysModifiers s said s') :
    s.LeadsTo s' := by
  induction h with
  | nil s => exact .refl s
  | cons h _ ih => exact h.beyond.leadsTo.trans ih

theorem SaysType.leadsTo {type : ColumnType} (h : SaysType s type s') : s.LeadsTo s' := by
  cases h with
  | absent => exact .refl s
  | word _ hword => exact hword.leadsTo
  | sized hwords _ hclose => exact hwords.leadsTo.trans (.token _ hclose.leadsTo)

theorem DefinesColumn.beyond {c : Column} (h : DefinesColumn s c s') : s.Beyond s' := by
  cases h with
  | intro _ _ _ htype hmodifiers _ => exact ⟨_, _, rfl, htype.leadsTo.trans hmodifiers.leadsTo⟩

theorem TableConstraint.leadsTo (h : TableConstraint s s') : s.LeadsTo s' := by
  obtain ⟨words, -, s₁, s₂, s₃, hnaming, hwords, hcolumns, hconflict⟩ := h
  exact (hnaming.leadsTo Naming.beyond).trans (hwords.leadsTo.trans
    (hcolumns.beyond.leadsTo.trans (hconflict.leadsTo Conflict.beyond)))

end Beyond

/-! ## What is next -/

section At

variable {s s' : TokenStream} {words words' : List String} {word : String}

theorem At.mono (h : s.At words) (hwords : words ⊆ words') : s.At words' := by
  obtain ⟨word, hmem, hnext⟩ := h
  exact ⟨word, hwords hmem, hnext⟩

theorem At.of_append (h : s.At (words ++ words')) : s.At words ∨ s.At words' := by
  obtain ⟨word, hmem, hnext⟩ := h
  exact (List.mem_append.mp hmem).imp (⟨word, ·, hnext⟩) (⟨word, ·, hnext⟩)

theorem Words.at_of_mem {more : List String} (h : Words (word :: more) s s') (hmem : word ∈ words) :
    s.At words := by
  cases h with
  | cons his _ => exact ⟨word, hmem, _, .cons his (.nil _)⟩

theorem Words.at {more : List String} (h : Words (word :: more) s s') : s.At [word] :=
  h.at_of_mem (.head _)

/-- Before a form that need not be there stands its first word, or what stands behind it. -/
theorem Perhaps.at {form : TokenStream → TokenStream → Prop} (h : Perhaps form s s')
    (hform : ∀ {s s'}, form s s' → s.At words) (hbehind : s'.At words') :
    s.At (words ++ words') := by
  rcases h with rfl | h
  · exact hbehind.mono (List.subset_append_right _ _)
  · exact (hform h).mono (List.subset_append_left _ _)

theorem Conflict.at (h : Conflict s s') : s.At ["ON"] := by
  obtain ⟨action, -, hwords⟩ := h
  exact hwords.at

theorem Direction.at (h : Direction s s') : s.At ["ASC", "DESC"] := by
  obtain ⟨word, hmem, hword⟩ := h
  exact hword.at_of_mem hmem

theorem Naming.at (h : Naming s s') : s.At ["CONSTRAINT"] := by
  obtain ⟨name, hword⟩ := h
  exact hword.at

theorem IndexedColumns.at (h : IndexedColumns s s') : s.At ["("] := by
  obtain ⟨s₁, s₂, hopen, -, -⟩ := h
  exact hopen.at

theorem SaysModifier.at {said : Said} (h : SaysModifier s said s') : s.At modifierStarts := by
  cases h with
  | notNull hwords _ => exact hwords.at_of_mem (by decide)
  | null hword => exact hword.at_of_mem (by decide)
  | primaryKey hwords _ _ => exact hwords.at_of_mem (by decide)
  | automaticKey hwords _ _ _ => exact hwords.at_of_mem (by decide)
  | unique hword _ => exact hword.at_of_mem (by decide)
  | default hword _ => exact hword.at_of_mem (by decide)
  | references hword _ => exact hword.at_of_mem (by decide)
  | collate h =>
      obtain ⟨name, -, hwords⟩ := h
      exact hwords.at_of_mem (by decide)
  | constraint h => exact h.at.mono (by decide)

theorem SaysModifiers.at {said : List Said} (h : SaysModifiers s said s')
    (hbehind : s'.At listEnds) : s.At definitionEnds := by
  cases h with
  | nil => exact hbehind.mono (List.subset_append_right _ _)
  | cons h _ => exact h.at.mono (List.subset_append_left _ _)

theorem TableConstraints.at (h : TableConstraints s s') (hbehind : s'.At listEnds) :
    s.At listEnds := by
  cases h with
  | nil => exact hbehind
  | cons hcomma _ _ => exact hcomma.at_of_mem (.head _)

end At

end TokenStream

end OnePassSql

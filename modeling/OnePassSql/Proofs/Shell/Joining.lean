import OnePassSql.Proofs.Alike.Statement
import OnePassSql.Proofs.Shell.Splitting

/-!
Statements that are joined with semicolons come back one by one, unless a semicolon is one of their
own tokens: a trigger has semicolons in its body, and a semicolon is also taken for a name.
-/

namespace OnePassSql.Shell

open Step

section Cutting

variable {cs : List Char} {tokens : List Token}

/-- Behind a text no quote is open: a semicolon is a cut. -/
theorem pieces_append_semicolon (h : Spells cs tokens) (rest : List Char) :
    pieces none [] (cs ++ ';' :: rest) = pieces none [] cs ++ pieces none [] rest := by
  have hwalk {part cs : List Char} (hpart : WalksOver part)
      (ih : pieces none [] (cs ++ ';' :: rest) = pieces none [] cs ++ pieces none [] rest) :
      pieces none [] (part ++ cs ++ ';' :: rest)
        = pieces none [] (part ++ cs) ++ pieces none [] rest := by
    obtain ⟨piece, behind, hpieces, -⟩ := exists_pieces none cs
    rw [List.append_assoc, hpart.pieces_append, hpart.pieces_append, ih, hpieces]
    rfl
  induction h with
  | nil => rfl
  | blank hblank _ ih => exact hwalk (walksOver_blank hblank) ih
  | @token first more tail t tokens hscan htext hclosed _ ih =>
      cases hsemi : t.is ";" with
      | true =>
          obtain ⟨rfl, rfl⟩ := eq_semicolon_of_text htext hsemi
          exact congrArg (List.cons []) ih
      | false => exact hwalk (walksOver_token htext hclosed (reads_of_scan? hscan) hsemi) ih

/-- A text without semicolons among its tokens is one piece. -/
theorem pieces_of_lacks (h : Spells cs tokens) (hlacks : ∀ t ∈ tokens, t.is ";" = false) :
    pieces none [] cs = [cs] := by
  induction h with
  | nil => rfl
  | @blank c cs tokens hblank _ ih =>
      rw [← List.singleton_append, (walksOver_blank hblank).pieces_append, ih hlacks]
      rfl
  | @token first more tail t tokens hscan htext hclosed _ ih =>
      rw [List.forall_mem_cons] at hlacks
      rw [← List.cons_append,
        (walksOver_token htext hclosed (reads_of_scan? hscan) hlacks.1).pieces_append,
        ih hlacks.2]
      rfl

theorem splitStatements_of_lacks {text : String} (h : Spells text.toList tokens)
    (hsome : tokens ≠ []) (hlacks : ∀ t ∈ tokens, t.is ";" = false) :
    splitStatements text = [Text.trim text] := by
  have hleft : Text.trimChars text.toList ≠ [] := fun hnil =>
    hsome (h.trimChars_eq_nil_iff.mp hnil)
  rw [splitStatements_eq, pieces_of_lacks h hlacks, List.map_singleton,
    List.filter_cons_of_pos (by simpa using hleft)]
  rfl

end Cutting

/-! ## Texts joined with semicolons -/

theorem splitStatements_join {script text rest : String} {tokens : List Token}
    (hscript : script.toList = text.toList ++ ';' :: rest.toList)
    (h : Spells text.toList tokens) :
    splitStatements script = splitStatements text ++ splitStatements rest := by
  rw [splitStatements_eq, hscript, pieces_append_semicolon h, List.map_append, List.filter_append,
    List.map_append, ← splitStatements_eq, ← splitStatements_eq]

theorem splitStatements_intercalate {texts : List String}
    (h : ∀ text ∈ texts, ∃ tokens, Spells text.toList tokens) :
    splitStatements (";".intercalate texts) = texts.flatMap splitStatements := by
  induction texts with
  | nil => rfl
  | cons text texts ih =>
      obtain ⟨⟨tokens, htext⟩, htexts⟩ := List.forall_mem_cons.mp h
      cases texts with
      | nil =>
          have hone : ";".intercalate [text] = text := by
            rw [← String.toList_inj, String.toList_intercalate, List.map_singleton,
              List.intercalate_singleton]
          rw [hone, List.flatMap_singleton]
      | cons next texts =>
          rw [List.flatMap_cons, ← ih htexts]
          refine splitStatements_join ?_ htext
          rw [String.toList_intercalate, String.toList_intercalate, List.map_cons, List.map_cons,
            List.intercalate_cons_cons, List.append_assoc]
          rfl

/-! ## Semicolons among the tokens -/

/-- What is cut off at semicolons holds none. -/
theorem lacks_of_mem_statementRuns {tokens run : List Token} (h : run ∈ statementRuns tokens) :
    ∀ t ∈ run, t.is ";" = false := by
  replace h := List.mem_of_mem_filter h
  induction tokens generalizing run with
  | nil =>
      obtain rfl := List.mem_singleton.mp h
      simp
  | cons t tokens ih =>
      rw [List.splitOnP_cons_eq_if_modifyHead] at h
      split at h
      next =>
        rcases List.mem_cons.mp h with rfl | h
        · simp
        · exact ih h
      next hsemi =>
        obtain ⟨head, behind, hruns⟩ :=
          List.exists_cons_of_ne_nil (List.splitOnP_ne_nil (fun t : Token => t.is ";") tokens)
        rw [hruns] at h ih
        rcases List.mem_cons.mp h with rfl | h
        · exact List.forall_mem_cons.mpr ⟨by simpa using hsemi, ih List.mem_cons_self⟩
        · exact ih (List.mem_cons_of_mem _ h)

/-- Two ways to read a text find a semicolon in it or do not. -/
theorem lacks_congr {cs : List Char} {tokens tokens' : List Token} (h : Spells cs tokens)
    (h' : Spells cs tokens') (hlacks : ∀ t ∈ tokens, t.is ";" = false) :
    ∀ t ∈ tokens', t.is ";" = false := by
  have hsame := (h.cut 0).2.symm.trans (h'.cut 0).2
  intro t ht
  have hreading := List.mem_map_of_mem (f := fun t : Token => (t.kind, t.text)) ht
  rw [← hsame] at hreading
  obtain ⟨u, hu, hut⟩ := List.mem_map.mp hreading
  have htext : u.text = t.text := (Prod.mk.inj hut).2
  rw [Token.is, ← htext]
  exact hlacks u hu

/-- No statement of a script has a semicolon among its tokens. -/
theorem lacks_of_mem_splitStatements {text statement : String} {tokens run : List Token}
    (h : Spells text.toList tokens) (hmem : statement ∈ splitStatements text)
    (hstatement : Spells statement.toList run) : ∀ t ∈ run, t.is ";" = false := by
  obtain ⟨i, hi⟩ := List.getElem?_of_mem hmem
  obtain ⟨run', hrun', hspells⟩ :=
    Result.exists_right_of_forall₂ (forall₂_spells_splitStatements h) hi
  exact lacks_congr hspells hstatement (lacks_of_mem_statementRuns (List.mem_of_getElem? hrun'))

/-! ## Whole statements -/

/-- The text is one whole statement: in some state it is carried out, and that takes all of its
tokens. -/
def IsWholeStatement (ρ : Type) [Record ρ] (text : String) : Prop :=
  ∃ (db : Database) (records : Records ρ) (t : Table) (s : Session ρ) (n : Nat),
    Statement.run ⟨.ofText text, db, records⟩ = .ok t s ∧ s.parser.ahead = .done n

section Whole

variable {ρ : Type} [Record ρ] {text : String}

theorem IsWholeStatement.complete (h : IsWholeStatement ρ text) :
    (TokenStream.ofText text).Complete := by
  obtain ⟨db, records, t, s, n, hrun, hend⟩ := h
  have hmoves := Statement.leadsTo_of_run hrun
  rw [hend] at hmoves
  exact ⟨n, hmoves.ending_eq⟩

theorem IsWholeStatement.ne_nil (h : IsWholeStatement ρ text) :
    (TokenStream.ofText text).toList ≠ [] := by
  obtain ⟨db, records, t, s, n, hrun, -⟩ := h
  obtain ⟨kind, s', hfirst, -⟩ := bind_eq_ok.mp hrun
  obtain ⟨p, hp, -⟩ := Statement.parsing_eq_ok.mp hfirst
  obtain ⟨first, rest, -, hahead, -⟩ := Parse.expectOne_eq_ok hp
  rw [show TokenStream.ofText text = .token first rest from hahead]
  exact List.cons_ne_nil first rest.toList

theorem IsWholeStatement.spells (h : IsWholeStatement ρ text)
    (hclosed : ∀ t ∈ (TokenStream.ofText text).toList, t.Closed) :
    Spells text.toList (TokenStream.ofText text).toList := by
  obtain ⟨n, hending⟩ := h.complete
  exact spells_of_cut hending hclosed

/-- A run that stops at the end shows that the text is a whole statement. -/
theorem IsWholeStatement.of_run (db : Database) (records : Records ρ) (n : Nat)
    (h : (match Statement.run (⟨.ofText text, db, records⟩ : Session ρ) with
      | .ok _ s => some s.parser.ahead
      | .error _ _ => none) = some (.done n)) : IsWholeStatement ρ text := by
  split at h
  next t s hrun => exact ⟨db, records, t, s, n, hrun, Option.some.inj h⟩
  next => cases h

/-- A script of whole statements, whatever their kinds, is cut where they were joined and at the
semicolons among their own tokens. So it comes apart into just these statements exactly if none of
them has such a token. -/
theorem splitStatements_whole_statements {texts : List String}
    (hwhole : ∀ text ∈ texts, IsWholeStatement ρ text)
    (hclosed : ∀ text ∈ texts, ∀ t ∈ (TokenStream.ofText text).toList, t.Closed) :
    splitStatements (";".intercalate texts) = texts.flatMap splitStatements ∧
      (splitStatements (";".intercalate texts) = texts.map Text.trim ↔
        ∀ text ∈ texts, ∀ t ∈ (TokenStream.ofText text).toList, t.is ";" = false) := by
  have hspells (text : String) (htext : text ∈ texts) :
      Spells text.toList (TokenStream.ofText text).toList :=
    (hwhole text htext).spells (hclosed text htext)
  have hcut := splitStatements_intercalate fun text htext => ⟨_, hspells text htext⟩
  refine ⟨hcut, ?_⟩
  rw [hcut]
  constructor
  · intro hsame text htext
    have hmem : Text.trim text ∈ texts.flatMap splitStatements := by
      rw [hsame]
      exact List.mem_map_of_mem htext
    obtain ⟨other, hother, hstatement⟩ := List.mem_flatMap.mp hmem
    refine lacks_of_mem_splitStatements (hspells other hother) hstatement ?_
    rw [Text.trim, String.toList_ofList]
    exact (hspells text htext).trimChars
  · intro hlacks
    have hone (text : String) (htext : text ∈ texts) :
        splitStatements text = [Text.trim text] :=
      splitStatements_of_lacks (hspells text htext) (hwhole text htext).ne_nil (hlacks text htext)
    rw [← List.flatMap_pure_eq_map]
    exact List.flatMap_congr hone

/-- A trigger between two statements: the semicolon in its body cuts it, the ones in quotes do not
cut. -/
theorem splitStatements_whole_statements_trigger :
    let texts :=
      [" SELECT 'a;b'", "CREATE TRIGGER a INSERT ON b BEGIN DELETE; END", "ANALYZE \";\" "]
    (∀ text ∈ texts, IsWholeStatement CellRecord text) ∧
      (∀ text ∈ texts, ∀ t ∈ (TokenStream.ofText text).toList, t.Closed) ∧
      splitStatements (";".intercalate texts)
        = ["SELECT 'a;b'", "CREATE TRIGGER a INSERT ON b BEGIN DELETE", "END", "ANALYZE \";\""] ∧
      ¬splitStatements (";".intercalate texts) = texts.map Text.trim := by
  intro texts
  have hwhole : ∀ text ∈ texts, IsWholeStatement CellRecord text := by
    refine List.forall_mem_cons.mpr ⟨?_, List.forall_mem_cons.mpr
      ⟨?_, List.forall_mem_singleton.mpr ?_⟩⟩
    · exact .of_run .standard ⟨[]⟩ 13 (by decide +kernel)
    · exact .of_run .standard ⟨[]⟩ 46 (by decide +kernel)
    · exact .of_run .standard ⟨[]⟩ 12 (by decide +kernel)
  have hclosed : ∀ text ∈ texts, ∀ t ∈ (TokenStream.ofText text).toList, t.Closed := by
    decide +kernel
  have hmain := splitStatements_whole_statements hwhole hclosed
  refine ⟨hwhole, hclosed, ?_, ?_⟩
  · rw [hmain.1]
    decide +kernel
  · rw [hmain.2]
    decide +kernel

/-- Cut at its semicolon a trigger comes back as two statements. -/
theorem not_splitStatements_eq_whole_statements :
    ¬∀ texts : List String, (∀ text ∈ texts, IsWholeStatement CellRecord text) →
      (∀ text ∈ texts, ∀ t ∈ (TokenStream.ofText text).toList, t.Closed) →
      splitStatements (";".intercalate texts) = texts.map Text.trim := by
  intro h
  have hcut := h ["CREATE TRIGGER a INSERT ON b BEGIN DELETE; END"]
    (List.forall_mem_singleton.mpr
      (.of_run .standard ⟨[]⟩ 46 (by decide +kernel)))
    (by decide +kernel)
  exact absurd hcut (by decide +kernel)

end Whole

end OnePassSql.Shell

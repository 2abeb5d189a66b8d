import Mathlib.Data.List.Forall2
import OnePassSql.Shell.Script
import OnePassSql.Proofs.Token.Classes
import OnePassSql.Proofs.Database.Layout

/-!
The splitter of scripts knows quotes and semicolons, the lexer knows tokens. On a script that is cut
into tokens without a fault, with every quoted text closed, the two agree on where statements end.
-/

namespace OnePassSql

/-! ## Texts that spell tokens -/

/-- The text consists of the tokens, wherever these are said to stand, with blanks in between and
with every quoted text closed. -/
inductive Spells : List Char → List Token → Prop where
  | nil : Spells [] []
  | blank {c : Char} {cs : List Char} {tokens : List Token} :
      Text.isBlank c = true → Spells cs tokens → Spells (c :: cs) tokens
  | token {first : Char} {more tail : List Char} {t : Token} {tokens : List Token} :
      scan? first (more ++ tail) = some (t.kind, more, tail) →
      t.text = String.ofList (first :: more) → t.Closed → Spells tail tokens →
      Spells (first :: (more ++ tail)) (t :: tokens)

/-- A text is read as its tokens. -/
theorem spells_of_cut {n m : Nat} {cs : List Char} (h : (TokenStream.cut n cs).ending = .done m)
    (hclosed : ∀ t ∈ (TokenStream.cut n cs).toList, t.Closed) :
    Spells cs (TokenStream.cut n cs).toList := by
  induction n, cs using TokenStream.cut_induction with
  | nil n =>
      rw [TokenStream.cut_nil]
      exact .nil
  | blank n c cs hblank ih =>
      rw [TokenStream.cut_of_blank hblank] at h hclosed ⊢
      exact .blank hblank (ih h hclosed)
  | token n first rest hblank ih =>
      cases hscan : scan? first rest with
      | none =>
          rw [TokenStream.cut_of_not_blank hblank, TokenStream.cutToken, hscan] at h
          cases h
      | some scanned =>
          obtain ⟨kind, more, tail⟩ := scanned
          obtain rfl := scan?_append hscan
          rw [TokenStream.cut_of_scan? hblank hscan] at h hclosed ⊢
          exact .token hscan rfl (hclosed _ List.mem_cons_self)
            (ih kind more tail hscan h fun t ht => hclosed t (List.mem_cons_of_mem _ ht))

namespace Spells

variable {cs : List Char} {tokens : List Token}

/-- What a text spells is what it is read as. -/
theorem cut (h : Spells cs tokens) (n : Nat) :
    (TokenStream.cut n cs).Complete ∧
      ((TokenStream.cut n cs).toList.map fun t => (t.kind, t.text))
        = tokens.map fun t => (t.kind, t.text) := by
  induction h generalizing n with
  | nil =>
      rw [TokenStream.cut_nil]
      exact ⟨⟨n, rfl⟩, rfl⟩
  | blank hblank _ ih =>
      rw [TokenStream.cut_of_blank hblank]
      exact ih (n + 1)
  | @token first more tail t tokens hscan htext _ _ ih =>
      obtain ⟨hcomplete, hread⟩ := ih (n + 1 + more.length)
      rw [TokenStream.cut_of_scanned hscan, TokenStream.toList, List.map_cons, List.map_cons, hread,
        htext]
      exact ⟨hcomplete, rfl⟩

theorem all_blank (h : Spells cs []) : ∀ c ∈ cs, Text.isBlank c = true := by
  generalize hnone : ([] : List Token) = tokens at h
  induction h with
  | nil => simp
  | blank hblank _ ih => exact List.forall_mem_cons.mpr ⟨hblank, ih hnone⟩
  | token => cases hnone

end Spells

/-! ## The characters of a token -/

section Characters

variable {kind : TokenKind} {cs more : List Char} {c first : Char}

/-- Outside of quotes a token consists of signs, which are punctuation on their own only, and of
the characters of words. -/
theorem TokenKind.Reads.sign_or_word (h : kind.Reads cs) (hkind : kind.quote? = none)
    (hc : c ∈ cs) :
    (isPunctuation c = true ∧ cs = [c]) ∨ isComparison c = true ∨ continuesWord c = true := by
  cases kind with
  | symbol =>
      rcases h with ⟨d, hd, rfl⟩ | ⟨d, hd, rfl | rfl⟩
      · obtain rfl := List.mem_singleton.mp hc
        exact .inl ⟨hd, rfl⟩
      · obtain rfl := List.mem_singleton.mp hc
        exact .inr (.inl hd)
      · rcases List.mem_cons.mp hc with rfl | hc
        · exact .inr (.inl hd)
        · obtain rfl := List.mem_singleton.mp hc
          exact .inr (.inl (by decide))
  | string => cases hkind
  | quotedName => cases hkind
  | number => exact .inr (.inr (signs_of_isDigit (h.2 c hc)).2.2.2.2.2)
  | word =>
      obtain ⟨first, more, rfl, hfirst, hmore⟩ := h
      rcases List.mem_cons.mp hc with rfl | hc
      · exact .inr (.inr (continuesWord_of_startsWord hfirst))
      · exact .inr (.inr (hmore c hc))

/-- With its closing quote a quoted text has the quote at its two ends and nowhere else. -/
theorem eq_of_closed {t : Token} (htext : t.text = String.ofList (first :: more))
    (hclosed : t.Closed) (hreads : t.kind.Reads (first :: more))
    (hkind : t.kind.quote? = some c) :
    first = c ∧ ∃ body, c ∉ body ∧ more = body ++ [c] := by
  rw [TokenKind.reads_of_quote? hkind, isQuoted_cons] at hreads
  obtain ⟨rfl, body, hbody, rfl | rfl⟩ := hreads
  · obtain ⟨hlength, hlast⟩ := hclosed first hkind
    rw [htext, String.toList_ofList] at hlast
    rw [htext, String.length_ofList] at hlength
    cases more with
    | nil => simp at hlength
    | cons d more =>
        rw [List.getLast?_cons_cons] at hlast
        exact absurd (List.mem_of_getLast? hlast) hbody
  · exact ⟨rfl, body, hbody, rfl⟩

theorem TokenKind.Reads.not_blank (h : kind.Reads (first :: more)) :
    Text.isBlank first = false := by
  refine eq_false_of_ne_true fun hblank => ?_
  have hscan : scan? first (more ++ []) = some (kind, more, []) := scan?_of_reads h (by simp)
  rw [scan?_of_blank hblank] at hscan
  cases hscan

/-- No word goes on with a blank. -/
theorem not_continuesWord_of_blank (h : Text.isBlank c = true) : continuesWord c = false := by
  have hnot (kind : TokenKind) : ¬kind.Reads [c] := fun hreads => by
    rw [hreads.not_blank] at h
    cases h
  have hstarts : startsWord c = false := eq_false_of_ne_true fun hstarts =>
    hnot .word ⟨c, [], rfl, hstarts, by simp⟩
  have hdigit : c.isDigit = false := eq_false_of_ne_true fun hdigit =>
    hnot .number ⟨List.cons_ne_nil c [], by simpa using hdigit⟩
  have hdot : c ≠ '.' := by
    rintro rfl
    exact absurd h (by decide)
  have hnumeral : Text.isNumeral c = false := by
    rw [Text.isNumeral, hdigit, Text.not_within_of_apart (by decide +kernel) h, ite_self]
  rw [startsWord, Bool.or_eq_false_iff] at hstarts
  simp [continuesWord, hstarts, hnumeral, hdot]

/-- A token that does not break off ends with a character of its own, not with a blank. -/
theorem not_blank_of_getLast? {t : Token} (htext : t.text = String.ofList (first :: more))
    (hclosed : t.Closed) (hreads : t.kind.Reads (first :: more))
    (hlast : (first :: more).getLast? = some c) : Text.isBlank c = false := by
  have hsymbol (hsign : isPunctuation c = true ∨ isComparison c = true) :
      TokenKind.symbol.Reads [c] :=
    hsign.imp (⟨c, ·, rfl⟩) (⟨c, ·, .inl rfl⟩)
  cases hkind : t.kind.quote? with
  | some quote =>
      obtain ⟨rfl, body, -, rfl⟩ := eq_of_closed htext hclosed hreads hkind
      rw [← List.cons_append, List.getLast?_concat] at hlast
      obtain rfl := Option.some.inj hlast
      exact hreads.not_blank
  | none =>
      rcases hreads.sign_or_word hkind (List.mem_of_getLast? hlast) with ⟨hsign, -⟩ | hsign | hword
      · exact (hsymbol (.inl hsign)).not_blank
      · exact (hsymbol (.inr hsign)).not_blank
      · refine eq_false_of_ne_true fun hblank => ?_
        rw [not_continuesWord_of_blank hblank] at hword
        cases hword

end Characters

/-! ## Blanks around a text -/

/-- A token does not hang on how much of the text behind it is there. -/
theorem scan?_cut_short {first : Char} {more tail front : List Char} {kind : TokenKind}
    (h : scan? first (more ++ tail) = some (kind, more, tail)) (hfront : front <+: tail) :
    scan? first (more ++ front) = some (kind, more, front) := by
  refine scan?_of_reads (reads_of_scan? h) fun c hc => ?_
  obtain ⟨front, rfl⟩ := List.head?_eq_some_iff.mp hc
  obtain ⟨behind, rfl⟩ := hfront
  exact not_reads_of_scan? h

namespace Spells

variable {cs : List Char} {tokens : List Token}

theorem dropWhile_blank (h : Spells cs tokens) : Spells (cs.dropWhile Text.isBlank) tokens := by
  induction h with
  | nil => exact .nil
  | blank hblank _ ih => rwa [List.dropWhile_cons_of_pos hblank]
  | @token first more tail t tokens hscan htext hclosed htail _ =>
      have hfirst : ¬Text.isBlank first = true := fun hblank => by
        rw [scan?_of_blank hblank] at hscan
        cases hscan
      rw [List.dropWhile_cons_of_neg hfirst]
      exact .token hscan htext hclosed htail

/-- A blank at the end can go. -/
theorem of_append_blank {c : Char} (hblank : Text.isBlank c = true)
    (h : Spells (cs ++ [c]) tokens) : Spells cs tokens := by
  generalize htext : cs ++ [c] = text at h
  induction h generalizing cs with
  | nil => simp at htext
  | @blank d rest tokens hd hrest ih =>
      cases cs with
      | nil =>
          obtain ⟨-, rfl⟩ := List.cons.inj htext
          exact hrest
      | cons d' cs =>
          obtain ⟨rfl, hrest⟩ := List.cons.inj htext
          exact .blank hd (ih hrest)
  | @token first more tail t tokens hscan ht hclosed htail ih =>
      rcases tail.eq_nil_or_concat with rfl | ⟨tail, d, rfl⟩
      · have hlast : (first :: more).getLast? = some c := by
          rw [List.append_nil] at htext
          rw [← htext, List.getLast?_concat]
        rw [not_blank_of_getLast? ht hclosed (reads_of_scan? hscan) hlast] at hblank
        cases hblank
      · rw [List.concat_eq_append, ← List.append_assoc, ← List.cons_append] at htext
        obtain ⟨rfl, hd⟩ := List.append_inj' htext rfl
        obtain rfl := List.singleton_inj.mp hd
        rw [List.concat_eq_append] at hscan ih
        exact .token (scan?_cut_short hscan (List.prefix_append tail [c])) ht hclosed (ih rfl)

/-- The blanks around a text do not count. -/
theorem trimChars (h : Spells cs tokens) : Spells (Text.trimChars cs) tokens := by
  have hback (front : List Char) (h : Spells front.reverse tokens) :
      Spells (front.dropWhile Text.isBlank).reverse tokens := by
    induction front with
    | nil => exact h
    | cons c front ih =>
        cases hblank : Text.isBlank c with
        | true =>
            rw [List.reverse_cons] at h
            rw [List.dropWhile_cons_of_pos hblank]
            exact ih (h.of_append_blank hblank)
        | false => rwa [List.dropWhile_cons_of_neg (by simp [hblank])]
  refine hback _ ?_
  rw [List.reverse_reverse]
  exact h.dropWhile_blank

/-- Nothing is left of a text exactly if it has no tokens. -/
theorem trimChars_eq_nil_iff (h : Spells cs tokens) : Text.trimChars cs = [] ↔ tokens = [] := by
  constructor
  · intro hnil
    have htrim := h.trimChars
    rw [hnil] at htrim
    cases htrim
    rfl
  · rintro rfl
    rw [Text.trimChars, List.dropWhile_eq_nil_iff.mpr h.all_blank]
    rfl

end Spells

namespace Shell

/-! ## The splitter -/

theorem pieces_eq_modifyHead (quote : Option Char) (current cs : List Char) :
    pieces quote current cs = (pieces quote [] cs).modifyHead (current.reverse ++ ·) := by
  induction cs generalizing quote current with
  | nil => simp [pieces]
  | cons c cs ih =>
      unfold pieces
      split
      · simp
      · rw [ih, ih _ [c], List.modifyHead_modifyHead]
        congr 1
        funext piece
        simp

/-- The first piece is what the script starts with. -/
theorem exists_pieces (quote : Option Char) (cs : List Char) :
    ∃ piece behind, pieces quote [] cs = piece :: behind ∧ piece <+: cs := by
  induction cs generalizing quote with
  | nil => exact ⟨[], [], rfl, List.prefix_rfl⟩
  | cons c cs ih =>
      unfold pieces
      split
      · exact ⟨[], _, rfl, List.nil_prefix⟩
      · obtain ⟨piece, behind, hpieces, hprefix⟩ := ih (quoteAfter quote c)
        refine ⟨c :: piece, behind, ?_, List.cons_prefix_cons.mpr ⟨rfl, hprefix⟩⟩
        rw [pieces_eq_modifyHead, hpieces]
        rfl

/-- The splitter goes over the part without a cut, and no quote is open behind it. -/
def WalksOver (part : List Char) : Prop :=
  ∀ current rest,
    pieces none current (part ++ rest) = pieces none (part.reverse ++ current) rest

theorem WalksOver.pieces_append {part : List Char} (h : WalksOver part) (rest : List Char) :
    pieces none [] (part ++ rest) = (pieces none [] rest).modifyHead (part ++ ·) := by
  rw [h, List.append_nil, pieces_eq_modifyHead, List.reverse_reverse]

theorem walksOver_of_plain {part : List Char}
    (h : ∀ c ∈ part, c ≠ ';' ∧ isQuote c = false) : WalksOver part := by
  induction part with
  | nil => exact fun _ _ => rfl
  | cons c part ih =>
      obtain ⟨⟨hsemi, hquote⟩, hpart⟩ := List.forall_mem_cons.mp h
      intro current rest
      rw [List.cons_append, pieces, if_neg (fun hcut => hsemi hcut.2), quoteAfter, hquote,
        if_neg Bool.false_ne_true, ih hpart]
      simp

theorem walksOver_quoted {quote : Char} {body : List Char} (hquote : isQuote quote = true)
    (hbody : quote ∉ body) : WalksOver (quote :: (body ++ [quote])) := by
  have hsemi : quote ≠ ';' := by
    rintro rfl
    exact absurd hquote (by decide)
  have hinside (body current rest : List Char) (hbody : quote ∉ body) :
      pieces (some quote) current (body ++ quote :: rest)
        = pieces none (quote :: (body.reverse ++ current)) rest := by
    induction body generalizing current with
    | nil => simp [pieces, quoteAfter]
    | cons c body ih =>
        rw [List.mem_cons, not_or] at hbody
        rw [List.cons_append, pieces, if_neg (by simp), quoteAfter, if_neg hbody.1, ih _ hbody.2]
        simp
  intro current rest
  rw [List.cons_append, pieces, if_neg (fun hcut => hsemi hcut.2), quoteAfter, if_pos hquote,
    List.append_assoc, List.singleton_append, hinside _ _ _ hbody]
  simp

/-- No quote stands in a token that is not quoted. -/
theorem not_isQuote_of_reads {kind : TokenKind} {cs : List Char} {c : Char} (h : kind.Reads cs)
    (hkind : kind.quote? = none) (hc : c ∈ cs) : isQuote c = false := by
  refine eq_false_of_ne_true fun hquote => ?_
  simp only [isQuote, List.contains_iff_mem, List.mem_cons, List.not_mem_nil, or_false] at hquote
  rcases h.sign_or_word hkind hc with ⟨hsign, -⟩ | hsign | hword
  · rcases hquote with rfl | rfl | rfl <;> exact absurd hsign (by decide)
  · rcases hquote with rfl | rfl | rfl <;> exact absurd hsign (by decide)
  · rcases hquote with rfl | rfl | rfl <;> exact absurd hword (by decide)

theorem isQuote_of_quote? {kind : TokenKind} {quote : Char} (h : kind.quote? = some quote) :
    isQuote quote = true := by
  cases kind <;> cases h <;> decide

/-- The splitter cuts at no token but the semicolon. -/
theorem walksOver_token {first : Char} {more : List Char} {t : Token}
    (htext : t.text = String.ofList (first :: more)) (hclosed : t.Closed)
    (hreads : t.kind.Reads (first :: more)) (hsemi : t.is ";" = false) :
    WalksOver (first :: more) := by
  cases hkind : t.kind.quote? with
  | some quote =>
      obtain ⟨rfl, body, hbody, rfl⟩ := eq_of_closed htext hclosed hreads hkind
      exact walksOver_quoted (isQuote_of_quote? hkind) hbody
  | none =>
      refine walksOver_of_plain fun c hc => ⟨?_, not_isQuote_of_reads hreads hkind hc⟩
      rintro rfl
      rcases hreads.sign_or_word hkind hc with ⟨-, hcs⟩ | hsign | hword
      · rw [Token.is, htext, hcs] at hsemi
        exact absurd hsemi (by decide)
      · exact absurd hsign (by decide)
      · exact absurd hword (by decide)

theorem not_isQuote_of_blank {c : Char} (h : Text.isBlank c = true) : isQuote c = false := by
  refine eq_false_of_ne_true fun hquote => ?_
  simp only [isQuote, List.contains_iff_mem, List.mem_cons, List.not_mem_nil, or_false] at hquote
  rcases hquote with rfl | rfl | rfl <;> exact absurd h (by decide)

theorem ne_semicolon_of_blank {c : Char} (h : Text.isBlank c = true) : c ≠ ';' := by
  rintro rfl
  exact absurd h (by decide)

theorem walksOver_blank {c : Char} (h : Text.isBlank c = true) : WalksOver [c] := by
  refine walksOver_of_plain fun d hd => ?_
  rw [List.mem_singleton.mp hd]
  exact ⟨ne_semicolon_of_blank h, not_isQuote_of_blank h⟩

/-- A token that reads as a semicolon is spelled by one. -/
theorem eq_semicolon_of_text {first : Char} {more : List Char} {t : Token}
    (htext : t.text = String.ofList (first :: more)) (h : t.is ";" = true) :
    first = ';' ∧ more = [] := by
  have hsemi : (⟨t.kind, String.ofList (first :: more), t.position⟩ : Token).is ";" = true := by
    rwa [← htext]
  exact TokenStream.eq_semicolon_of_is hsemi

/-! ## The statements of a script -/

section Statements

variable {cs : List Char} {tokens : List Token}

/-- The pieces of a script spell the runs of its tokens between the semicolons. -/
theorem forall₂_spells_pieces (h : Spells cs tokens) :
    List.Forall₂ Spells (pieces none [] cs) (tokens.splitOnP (·.is ";")) := by
  induction h with
  | nil => exact .cons .nil .nil
  | @blank c cs tokens hblank _ ih =>
      obtain ⟨piece, behind, hpieces, -⟩ := exists_pieces none cs
      have hwalk := (walksOver_blank hblank).pieces_append cs
      rw [hpieces] at ih hwalk
      rw [List.singleton_append] at hwalk
      rw [hwalk]
      generalize tokens.splitOnP (·.is ";") = runs at ih
      cases ih with
      | cons hpiece hbehind => exact .cons (.blank hblank hpiece) hbehind
  | @token first more tail t tokens hscan htext hclosed _ ih =>
      cases hsemi : t.is ";" with
      | true =>
          obtain ⟨rfl, rfl⟩ := eq_semicolon_of_text htext hsemi
          rw [List.splitOnP_cons_eq_if_modifyHead, if_pos hsemi]
          exact .cons .nil ih
      | false =>
          obtain ⟨piece, behind, hpieces, hprefix⟩ := exists_pieces none tail
          have hwalk := (walksOver_token htext hclosed (reads_of_scan? hscan) hsemi).pieces_append
            tail
          rw [hpieces] at ih hwalk
          rw [List.cons_append] at hwalk
          rw [hwalk, List.splitOnP_cons_eq_if_modifyHead, if_neg (by simp [hsemi])]
          generalize tokens.splitOnP (·.is ";") = runs at ih
          cases ih with
          | cons hpiece hbehind =>
              exact .cons (.token (scan?_cut_short hscan hprefix) htext hclosed hpiece) hbehind

theorem splitStatements_eq (script : String) :
    splitStatements script
      = (((pieces none [] script.toList).map Text.trimChars).filter
          fun cs => !cs.isEmpty).map String.ofList := by
  unfold splitStatements
  induction (pieces none [] script.toList).map Text.trimChars with
  | nil => rfl
  | cons piece behind ih => cases piece <;> simp_all

/-- The runs of tokens between the semicolons, without the empty ones. -/
def statementRuns (tokens : List Token) : List (List Token) :=
  (tokens.splitOnP (·.is ";")).filter fun run => !run.isEmpty

/-- The statements of a script spell the runs of its tokens between the semicolons. -/
theorem forall₂_spells_splitStatements {script : String} (h : Spells script.toList tokens) :
    List.Forall₂ (fun statement run => Spells statement.toList run) (splitStatements script)
      (statementRuns tokens) := by
  have htrimmed : List.Forall₂ (fun piece run => Spells piece run ∧ (piece = [] ↔ run = []))
      ((pieces none [] script.toList).map Text.trimChars) (tokens.splitOnP (·.is ";")) :=
    List.forall₂_map_left_iff.mpr ((forall₂_spells_pieces h).imp fun _ _ hpiece =>
      ⟨hpiece.trimChars, hpiece.trimChars_eq_nil_iff⟩)
  rw [splitStatements_eq, List.forall₂_map_left_iff]
  simp only [String.toList_ofList]
  refine (List.rel_filter (fun piece run hpiece => ?_) htrimmed).imp fun _ _ hpiece => hpiece.1
  simpa using not_congr hpiece.2

/-- Script splitting and tokens agree. If all of a script is cut into tokens and each quoted text in
it is closed, then its statements, cut into tokens each on its own, are the runs of the script's
tokens between the semicolons, in their order, without the empty ones. -/
theorem splitStatements_tokens {script : String}
    (hcomplete : (TokenStream.ofText script).Complete)
    (hclosed : ∀ t ∈ (TokenStream.ofText script).toList, t.Closed) :
    List.Forall₂
      (fun statement run => (TokenStream.ofText statement).Complete ∧
        ((TokenStream.ofText statement).toList.map fun t => (t.kind, t.text))
          = run.map fun t => (t.kind, t.text))
      (splitStatements script) (statementRuns (TokenStream.ofText script).toList) := by
  obtain ⟨n, hending⟩ := hcomplete
  exact (forall₂_spells_splitStatements (spells_of_cut hending hclosed)).imp
    fun _ _ hspells => hspells.cut 0

/-- Semicolons and a backtick inside of quotes, and semicolons side by side. -/
theorem splitStatements_tokens_quoted :
    let script := "SELECT 'a;b' ;; \"`;\"=1 ;\n"
    (TokenStream.ofText script).Complete ∧
      (∀ t ∈ (TokenStream.ofText script).toList, t.Closed) ∧
      splitStatements script = ["SELECT 'a;b'", "\"`;\"=1"] ∧
      List.Forall₂
        (fun statement run => (TokenStream.ofText statement).Complete ∧
          ((TokenStream.ofText statement).toList.map fun t => (t.kind, t.text))
            = run.map fun t => (t.kind, t.text))
        (splitStatements script) (statementRuns (TokenStream.ofText script).toList) := by
  intro script
  have hcomplete : (TokenStream.ofText script).Complete := ⟨25, by decide +kernel⟩
  have hclosed : ∀ t ∈ (TokenStream.ofText script).toList, t.Closed := by decide +kernel
  exact ⟨hcomplete, hclosed, by decide +kernel, splitStatements_tokens hcomplete hclosed⟩

end Statements

end Shell

end OnePassSql

import Mathlib.Data.List.DropRight
import OnePassSql.Proofs.Shell.Splitting

/-!
A text whose quotes are all closed is cut into tokens that do not hang on the blanks around it and
between its lines. Two such texts are compared where they stand, and with what they end.
-/

namespace OnePassSql

/-! ## Closed quotes -/

namespace Shell

/-- Every quote that is opened in the text is closed in it. -/
def Balanced (cs : List Char) : Prop := cs.foldl quoteAfter none = none

instance : DecidablePred Balanced :=
  fun cs => inferInstanceAs (Decidable (cs.foldl quoteAfter none = none))

variable {part cs : List Char}

theorem Balanced.append_iff (h : Balanced part) : Balanced (part ++ cs) ↔ Balanced cs := by
  rw [Balanced, List.foldl_append, h, Balanced]

theorem balanced_of_not_isQuote (h : ∀ c ∈ cs, isQuote c = false) : Balanced cs := by
  induction cs with
  | nil => rfl
  | cons c cs ih =>
      obtain ⟨hc, hcs⟩ := List.forall_mem_cons.mp h
      rw [Balanced, List.foldl_cons, quoteAfter, hc, if_neg Bool.false_ne_true]
      exact ih hcs

theorem balanced_of_blank (h : ∀ c ∈ cs, Text.isBlank c = true) : Balanced cs :=
  balanced_of_not_isQuote fun c hc => not_isQuote_of_blank (h c hc)

/-- A quote stays open until it comes again. -/
theorem foldl_quoteAfter_of_not_mem {quote : Char} (h : quote ∉ cs) :
    cs.foldl quoteAfter (some quote) = some quote := by
  induction cs with
  | nil => rfl
  | cons c cs ih =>
      rw [List.mem_cons, not_or] at h
      rw [List.foldl_cons, quoteAfter, if_neg h.1, ih h.2]

theorem foldl_quoteAfter_cons {quote : Char} (hquote : isQuote quote = true) (cs : List Char) :
    (quote :: cs).foldl quoteAfter none = cs.foldl quoteAfter (some quote) := by
  rw [List.foldl_cons, quoteAfter, if_pos hquote]

theorem not_balanced_cons {quote : Char} (hquote : isQuote quote = true) (h : quote ∉ cs) :
    ¬Balanced (quote :: cs) := by
  rw [Balanced, foldl_quoteAfter_cons hquote, foldl_quoteAfter_of_not_mem h]
  exact nofun

theorem balanced_quoted {quote : Char} (hquote : isQuote quote = true) (h : quote ∉ cs) :
    Balanced (quote :: (cs ++ [quote])) := by
  rw [Balanced, foldl_quoteAfter_cons hquote, List.foldl_append, foldl_quoteAfter_of_not_mem h,
    List.foldl_cons, quoteAfter, if_pos rfl]
  rfl

/-- What is open behind a text is a quote. -/
theorem isQuote_of_foldl {quote : Char} (h : cs.foldl quoteAfter none = some quote) :
    isQuote quote = true := by
  induction cs using List.reverseRecOn with
  | nil => cases h
  | append_singleton cs c ih =>
      rw [List.foldl_append, List.foldl_cons, List.foldl_nil] at h
      cases hopen : cs.foldl quoteAfter none with
      | none =>
          rw [hopen, quoteAfter] at h
          split at h
          next hquote =>
            obtain rfl := Option.some.inj h
            exact hquote
          next => cases h
      | some q =>
          rw [hopen, quoteAfter] at h
          split at h
          next => cases h
          next =>
            obtain rfl := Option.some.inj h
            exact ih hopen

/-- Text without quotes closes none. -/
theorem balanced_append_iff (h : ∀ c ∈ cs, isQuote c = false) :
    Balanced (part ++ cs) ↔ Balanced part := by
  cases hopen : part.foldl quoteAfter none with
  | none =>
      have hpart : Balanced part := hopen
      exact iff_of_true (hpart.append_iff.mpr (balanced_of_not_isQuote h)) hpart
  | some quote =>
      have hquote : quote ∉ cs := fun hmem =>
        absurd (isQuote_of_foldl hopen) (by simp [h quote hmem])
      rw [Balanced, Balanced, List.foldl_append, hopen, foldl_quoteAfter_of_not_mem hquote]

/-- At the end of the text, or before a blank or a semicolon, no token goes on. -/
def Breaks (cs : List Char) : Prop := ∀ c ∈ cs.head?, Text.isBlank c = true ∨ c = ';'

theorem breaks_nil : Breaks [] := by
  intro c hc
  cases hc

theorem breaks_blanks (h : ∀ c ∈ part, Text.isBlank c = true) (hsome : part ≠ []) :
    Breaks (part ++ cs) := by
  obtain ⟨c, part, rfl⟩ := List.exists_cons_of_ne_nil hsome
  intro d hd
  obtain rfl := Option.some.inj hd
  exact .inl (h c List.mem_cons_self)

theorem breaks_semicolon : Breaks (';' :: cs) := by
  intro d hd
  exact .inr (Option.some.inj hd).symm

end Shell

open Shell

/-! ## Trimmed texts -/

namespace Text

variable {cs before core behind : List Char}

/-- What a text has around it when it is trimmed. -/
theorem exists_trimChars (cs : List Char) : ∃ before behind : List Char,
    (∀ c ∈ before, isBlank c = true) ∧ (∀ c ∈ behind, isBlank c = true) ∧
      cs = before ++ (trimChars cs ++ behind) := by
  refine ⟨cs.takeWhile isBlank, (cs.dropWhile isBlank).rtakeWhile isBlank,
    fun c hc => List.mem_takeWhile_imp hc, fun c hc => List.mem_rtakeWhile_imp hc, ?_⟩
  have hback : trimChars cs = (cs.dropWhile isBlank).rdropWhile isBlank := rfl
  rw [hback, List.rdropWhile_append_rtakeWhile, List.takeWhile_append_dropWhile]

theorem trimChars_eq_nil_iff : trimChars cs = [] ↔ ∀ c ∈ cs, isBlank c = true := by
  constructor
  · intro hnil
    obtain ⟨before, behind, hbefore, hbehind, hcs⟩ := exists_trimChars cs
    rw [hcs, hnil, List.nil_append]
    exact List.forall_mem_append.mpr ⟨hbefore, hbehind⟩
  · intro hblank
    rw [trimChars, List.dropWhile_eq_nil_iff.mpr hblank]
    rfl

theorem not_blank_of_head_trimChars {c : Char} (h : c ∈ (trimChars cs).head?) :
    isBlank c = false := by
  have hprefix : trimChars cs <+: cs.dropWhile isBlank := List.rdropWhile_prefix _ _
  have hhead := List.head?_dropWhile_not isBlank cs
  obtain ⟨behind, hbehind⟩ := hprefix
  obtain ⟨rest, hrest⟩ := List.head?_eq_some_iff.mp h
  rw [← hbehind, hrest] at hhead
  exact hhead

/-- A text with blanks around it is trimmed to what has none at its ends. -/
theorem trimChars_eq (hbefore : ∀ c ∈ before, isBlank c = true)
    (hbehind : ∀ c ∈ behind, isBlank c = true) (hhead : ∀ c ∈ core.head?, isBlank c = false)
    (hlast : ∀ c ∈ core.getLast?, isBlank c = false) :
    trimChars (before ++ (core ++ behind)) = core := by
  have hdrop {blanks text : List Char} (hblanks : ∀ c ∈ blanks, isBlank c = true)
      (htext : ∀ c ∈ text.head?, isBlank c = false) :
      (blanks ++ text).dropWhile isBlank = text := by
    rw [List.dropWhile_append_of_pos hblanks]
    cases text with
    | nil => rfl
    | cons c text => rw [List.dropWhile_cons_of_neg (by simp [htext c rfl])]
  cases core with
  | nil =>
      rw [trimChars_eq_nil_iff]
      exact List.forall_mem_append.mpr ⟨hbefore, hbehind⟩
  | cons c core =>
      have hfront : (before ++ (c :: core ++ behind)).dropWhile isBlank = c :: core ++ behind :=
        hdrop hbefore hhead
      have hback : (behind.reverse ++ (c :: core).reverse).dropWhile isBlank
          = (c :: core).reverse :=
        hdrop (by simpa using hbehind) (by rwa [List.head?_reverse])
      rw [trimChars, hfront, List.reverse_append, hback, List.reverse_reverse]

end Text

theorem Shell.Balanced.trimChars {cs : List Char} (h : Shell.Balanced cs) :
    Shell.Balanced (Text.trimChars cs) := by
  obtain ⟨before, behind, hbefore, hbehind, hcs⟩ := Text.exists_trimChars cs
  rw [hcs] at h
  exact (Shell.balanced_append_iff fun c hc => Shell.not_isQuote_of_blank (hbehind c hc)).mp
    ((Shell.balanced_of_blank hbefore).append_iff.mp h)

/-! ## One token -/

section Scanning

variable {first c : Char} {more tail cs : List Char} {kind : TokenKind}

/-- That no token starts with a character does not hang on the text behind it. -/
theorem scan?_eq_none_congr {rest : List Char} (h : scan? first rest = none) (rest' : List Char) :
    scan? first rest' = none := by
  rw [Option.eq_none_iff_forall_ne_some]
  rintro ⟨kind, more, tail⟩ hsome
  exact not_reads_of_scan?_eq_none h kind more (reads_of_scan? hsome)

/-- If a text has its quotes closed, then a token at its front has. -/
theorem balanced_of_scan? (h : scan? first (more ++ tail) = some (kind, more, tail))
    (hbalanced : Balanced (first :: (more ++ tail))) : Balanced (first :: more) := by
  have hreads := reads_of_scan? h
  cases hkind : kind.quote? with
  | none => exact balanced_of_not_isQuote fun c hc => not_isQuote_of_reads hreads hkind hc
  | some quote =>
      have hquote := isQuote_of_quote? hkind
      have hquoted (text : List Char) : kind.Reads text ↔ IsQuoted quote text :=
        TokenKind.reads_of_quote? hkind
      obtain ⟨rfl, body, hbody, rfl | rfl⟩ := isQuoted_cons.mp ((hquoted _).mp hreads)
      · -- behind a token that is not closed there is nothing
        cases tail with
        | nil => rwa [List.append_nil] at hbalanced
        | cons c tail =>
            have hlongest : ¬kind.Reads (first :: (more ++ [c])) := not_reads_of_scan? h
            refine absurd ((hquoted _).mpr (isQuoted_cons.mpr ?_)) hlongest
            by_cases hc : c = first
            · exact ⟨rfl, more, hbody, .inr (by rw [hc])⟩
            · exact ⟨rfl, more ++ [c], by simp [hbody, Ne.symm hc], .inl rfl⟩
      · exact balanced_quoted hquote hbody

/-- No token goes on with a blank or a semicolon. -/
theorem not_reads_append (h : kind.Reads (first :: more)) (hbalanced : Balanced (first :: more))
    (hc : Text.isBlank c = true ∨ c = ';') : ¬kind.Reads (first :: (more ++ [c])) := by
  intro hlong
  cases hkind : kind.quote? with
  | none =>
      have hsign : isComparison c = false := by
        rcases hc with hblank | rfl
        · refine eq_false_of_ne_true fun hsign => ?_
          have hreads : TokenKind.symbol.Reads [c] := .inr ⟨c, hsign, .inl rfl⟩
          rw [hreads.not_blank] at hblank
          cases hblank
        · decide
      have hword : continuesWord c = false := by
        rcases hc with hblank | rfl
        · exact not_continuesWord_of_blank hblank
        · exact not_continuesWord_of_sign (.inl (by decide))
      rcases hlong.sign_or_word hkind (show c ∈ _ by simp) with ⟨-, hone⟩ | hc | hc
      · simp at hone
      · rw [hsign] at hc
        cases hc
      · rw [hword] at hc
        cases hc
  | some quote =>
      rw [TokenKind.reads_of_quote? hkind, isQuoted_cons] at h hlong
      obtain ⟨rfl, body, hbody, rfl | rfl⟩ := h
      · exact not_balanced_cons (isQuote_of_quote? hkind) hbody hbalanced
      · obtain ⟨-, body', hbody', hlong | hlong⟩ := hlong
        · exact hbody' (hlong ▸ by simp)
        · exact hbody' ((List.append_inj' hlong rfl).1 ▸ by simp)

/-- What can stand behind a text with closed quotes does not show in its tokens. -/
theorem scan?_append_of_balanced (h : scan? first (more ++ tail) = some (kind, more, tail))
    (hbalanced : Balanced (first :: (more ++ tail))) (hbreaks : Breaks cs) :
    scan? first (more ++ (tail ++ cs)) = some (kind, more, tail ++ cs) := by
  refine scan?_of_reads (reads_of_scan? h) fun c hc => ?_
  cases tail with
  | nil => exact not_reads_append (reads_of_scan? h) (balanced_of_scan? h hbalanced) (hbreaks c hc)
  | cons d tail =>
      obtain rfl := Option.some.inj hc
      exact not_reads_of_scan? h

end Scanning

/-! ## Texts that read alike -/

namespace TokenStream

/-- Both streams have ended, or have come to the same fault. -/
inductive EndAlike : TokenStream → TokenStream → Prop where
  | ended (n m : Nat) : EndAlike (.done n) (.done m)
  | broken (ch : Char) (n m : Nat) : EndAlike (.fault ch n) (.fault ch m)

/-- Where the first stream has ended the second one has a semicolon and ends, or both have come to
the same fault. -/
inductive EndsBefore : TokenStream → TokenStream → Prop where
  | terminated {t : Token} (n m : Nat) : t.IsSemicolon → EndsBefore (.done n) (.token t (.done m))
  | broken (ch : Char) (n m : Nat) : EndsBefore (.fault ch n) (.fault ch m)

variable {T : TokenStream → TokenStream → Prop} {cs cs' part : List Char}

/-- Wherever the texts stand, their tokens are the same up to places that go with each other. -/
def CutsAlike (T : TokenStream → TokenStream → Prop) (cs cs' : List Char) : Prop :=
  ∀ n n', ∃ u v, T u v ∧ Abreast u v (cut n cs) (cut n' cs')

/-- Also a token before the texts stands side by side with their first tokens, or with neither. -/
def JoinsAlike (T : TokenStream → TokenStream → Prop) (cs cs' : List Char) : Prop :=
  ∀ n n', ∃ u v, T u v ∧ Abreast u v (cut n cs) (cut n' cs') ∧ ∀ t t' : Token, t.stop = n →
    t'.stop = n' → ((cut n cs).Adjoins t ↔ (cut n' cs').Adjoins t')

theorem JoinsAlike.cutsAlike (h : JoinsAlike T cs cs') : CutsAlike T cs cs' := by
  intro n n'
  obtain ⟨u, v, hT, habreast, -⟩ := h n n'
  exact ⟨u, v, hT, habreast⟩

/-- Blanks in front of a text do not count. -/
theorem CutsAlike.blanks_left {blanks : List Char} (h : CutsAlike T cs cs')
    (hblank : ∀ c ∈ blanks, Text.isBlank c = true) : CutsAlike T (blanks ++ cs) cs' := by
  induction blanks with
  | nil => exact h
  | cons c blanks ih =>
      obtain ⟨hc, hblanks⟩ := List.forall_mem_cons.mp hblank
      intro n n'
      rw [List.cons_append, cut_of_blank hc]
      exact ih hblanks (n + 1) n'

theorem CutsAlike.blanks_right {blanks : List Char} (h : CutsAlike T cs cs')
    (hblank : ∀ c ∈ blanks, Text.isBlank c = true) : CutsAlike T cs (blanks ++ cs') := by
  induction blanks with
  | nil => exact h
  | cons c blanks ih =>
      obtain ⟨hc, hblanks⟩ := List.forall_mem_cons.mp hblank
      intro n n'
      rw [List.cons_append, cut_of_blank hc]
      exact ih hblanks n (n' + 1)

/-- Behind a blank in both texts nothing stands side by side with what is before them. -/
theorem CutsAlike.joinsAlike {c c' : Char} (h : CutsAlike T cs cs') (hc : Text.isBlank c = true)
    (hc' : Text.isBlank c' = true) : JoinsAlike T (c :: cs) (c' :: cs') := by
  intro n n'
  obtain ⟨u, v, hT, habreast⟩ := h (n + 1) (n' + 1)
  rw [cut_of_blank hc, cut_of_blank hc']
  exact ⟨u, v, hT, habreast, fun t t' ht ht' => iff_of_false (not_adjoins_cut (by omega) _)
    (not_adjoins_cut (by omega) _)⟩

theorem CutsAlike.joinsAlike_blanks {blanks : List Char} {c' : Char} (h : CutsAlike T cs cs')
    (hblank : ∀ c ∈ blanks, Text.isBlank c = true) (hsome : blanks ≠ [])
    (hc' : Text.isBlank c' = true) : JoinsAlike T (blanks ++ cs) (c' :: cs') := by
  obtain ⟨c, blanks, rfl⟩ := List.exists_cons_of_ne_nil hsome
  obtain ⟨hc, hblanks⟩ := List.forall_mem_cons.mp hblank
  exact (h.blanks_left hblanks).joinsAlike hc hc'

/-- The same text can stand in front of two texts that join alike. -/
theorem JoinsAlike.append (h : JoinsAlike T cs cs') (hT : ∀ ch n m, T (.fault ch n) (.fault ch m))
    (hbreaks : Breaks cs) (hbreaks' : Breaks cs') (hpart : Balanced part) :
    JoinsAlike T (part ++ cs) (part ++ cs') := by
  intro n n'
  induction n, part using cut_induction generalizing n' with
  | nil n => exact h n n'
  | blank n c part hblank ih =>
      have hbalanced : Balanced part :=
        (balanced_of_blank (List.forall_mem_singleton.mpr hblank)).append_iff.mp hpart
      obtain ⟨u, v, hends, habreast, -⟩ := ih hbalanced (n' + 1)
      rw [List.cons_append, List.cons_append, cut_of_blank hblank, cut_of_blank hblank]
      exact ⟨u, v, hends, habreast, fun t t' ht ht' => iff_of_false (not_adjoins_cut (by omega) _)
        (not_adjoins_cut (by omega) _)⟩
  | token n first rest hblank ih =>
      rw [List.cons_append, List.cons_append]
      cases hscan : scan? first rest with
      | none =>
          rw [cut_of_not_blank hblank, cut_of_not_blank hblank, cutToken, cutToken,
            scan?_eq_none_congr hscan, scan?_eq_none_congr hscan]
          exact ⟨_, _, hT first n n', .last, fun _ _ _ _ => .rfl⟩
      | some scanned =>
          obtain ⟨kind, more, tail⟩ := scanned
          obtain rfl := scan?_append hscan
          have htail : Balanced tail := (balanced_of_scan? hscan hpart).append_iff.mp hpart
          obtain ⟨u, v, hends, habreast, hadjoins⟩ :=
            ih kind more tail hscan htail (n' + 1 + more.length)
          rw [List.append_assoc, List.append_assoc,
            cut_of_scan? hblank (scan?_append_of_balanced hscan hpart hbreaks),
            cut_of_scan? hblank (scan?_append_of_balanced hscan hpart hbreaks')]
          refine ⟨u, v, hends, .token ⟨rfl, rfl⟩ ?_ habreast, fun t t' ht ht' => ?_⟩
          · exact hadjoins _ _ (stop_cut n first more kind) (stop_cut n' first more kind)
          · simp only [Adjoins, ht, ht', true_and]
            exact not_congr (Token.SameText.isSemicolon_iff ⟨rfl, rfl⟩)

/-! ## Blanks around a text -/

theorem joinsAlike_blanks (h : ∀ c ∈ cs, Text.isBlank c = true) : JoinsAlike EndAlike [] cs := by
  intro n n'
  rw [cut_nil, cut_of_dropWhile_eq_nil (List.dropWhile_eq_nil_iff.mpr h)]
  exact ⟨_, _, .ended n _, .last, fun _ _ _ _ => .rfl⟩

/-- A semicolon never counts as side by side with what it ends. -/
theorem joinsAlike_semicolon : JoinsAlike EndsBefore [] [';'] := by
  intro n n'
  have hscan : scan? ';' [] = some (.symbol, [], []) := rfl
  have hsemi : (⟨.symbol, String.ofList [';'], n'⟩ : Token).IsSemicolon :=
    ⟨rfl, (by decide : Text.sameWord (String.ofList [';']) ";" = true)⟩
  rw [cut_nil, cut_of_scan? (by decide) hscan, cut_nil]
  exact ⟨_, _, .terminated n _ hsemi, .last, fun _ _ _ _ => iff_of_false id fun h => h.2 hsemi⟩

/-- A text reads as it does without the blanks around it. -/
theorem cutsAlike_trimChars (h : Balanced cs) : CutsAlike EndAlike (Text.trimChars cs) cs := by
  have htrimmed := h.trimChars
  obtain ⟨before, behind, hbefore, hbehind, hcs⟩ := Text.exists_trimChars cs
  generalize Text.trimChars cs = trimmed at hcs htrimmed
  subst hcs
  have hbreaks : Breaks behind := fun c hc => .inl (hbehind c (List.mem_of_mem_head? hc))
  have happend := (joinsAlike_blanks hbehind).append .broken breaks_nil hbreaks htrimmed
  rw [List.append_nil] at happend
  exact happend.cutsAlike.blanks_right hbefore

/-! ## One text after another -/

theorem Abreast.leadsTo_right {u v s s' : TokenStream} (h : Abreast u v s s') : s'.LeadsTo v := by
  induction h with
  | last => exact .refl v
  | token _ _ _ ih => exact .token _ ih

theorem Abreast.trans {u v w s s' s'' : TokenStream} (h : Abreast u v s s')
    (h' : Abreast v w s' s'') : Abreast u w s s'' := by
  induction h generalizing s'' with
  | last =>
      rw [h'.eq_last]
      exact .last
  | token htext hadjoins hs ih =>
      cases h' with
      | last => exact absurd hs.leadsTo_right (not_leadsTo_token _ _)
      | token htext' hadjoins' hs' =>
          exact .token ⟨htext.kind.trans htext'.kind, htext.text.trans htext'.text⟩
            (hadjoins.trans hadjoins') (ih hs')

theorem CutsAlike.trans {cs'' : List Char} (h : CutsAlike EndAlike cs cs')
    (h' : CutsAlike EndsBefore cs' cs'') : CutsAlike EndsBefore cs cs'' := by
  intro n n'
  obtain ⟨u, v, hends, habreast⟩ := h n 0
  obtain ⟨v', w, hends', habreast'⟩ := h' 0 n'
  obtain rfl : v' = v := by
    have hending := habreast'.endings.1.symm.trans habreast.endings.2
    cases hends <;> cases hends' <;> exact hending
  refine ⟨u, w, ?_, habreast.trans habreast'⟩
  cases hends with
  | ended =>
      cases hends' with
      | terminated _ m hsemi => exact .terminated _ m hsemi
  | broken =>
      cases hends' with
      | broken => exact .broken _ _ _

end TokenStream

end OnePassSql

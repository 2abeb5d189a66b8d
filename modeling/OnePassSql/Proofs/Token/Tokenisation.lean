import OnePassSql.Token.Lexer
import OnePassSql.Proofs.Token.Classes
import OnePassSql.Proofs.Token.Places

/-!
Nothing of a text is lost between its tokens: they stand in it one behind the other with blanks in
between, each as long as its class allows, up to the end or to a character that starts none.
-/

namespace OnePassSql

/-! ## The tokens of a text -/

/-- The token is the text that stands at its position, and the longest there of its class. Without
its closing quote a quoted text is the rest of all. -/
structure Token.StandsIn (text : List Char) (t : Token) : Prop where
  nonempty : 0 < t.text.length
  slice : text.extract t.position t.stop = t.text.toList
  reads : t.kind.Reads t.text.toList
  longest : ∀ j, t.stop < j → j ≤ text.length → ¬t.kind.Reads (text.extract t.position j)
  quoted : ∀ quote ∈ t.kind.quote?, ∃ body, quote ∉ body ∧
    (t.text.toList = quote :: (body ++ [quote]) ∨
      t.text.toList = quote :: body ∧ t.stop = text.length)

/-- Outside the tokens the text is blank up to its `n`-th character. -/
def BlankBetween (text : List Char) (tokens : List Token) (n : Nat) : Prop :=
  ∀ i c, i < n → text[i]? = some c →
    Text.isBlank c = true ∨ ∃ t ∈ tokens, t.position ≤ i ∧ i < t.stop

/-- Behind the tokens there are only blanks, or blanks and then a character that no token starts
with. -/
def ReachesTo (text : List Char) (tokens : List Token) : Option Fault → Prop
  | none => BlankBetween text tokens text.length
  | some f => ∃ ch n, f = .lexical ch n ∧ text[n]? = some ch ∧ BlankBetween text tokens n ∧
      (∀ t ∈ tokens, t.stop ≤ n) ∧ ∀ kind more, ¬TokenKind.Reads kind (ch :: more)

/-- The text cut into tokens without loss. Numbers and words are also not to be had longer by
starting earlier. -/
structure IsTokenisation (text : List Char) (tokens : List Token) (fault? : Option Fault) : Prop where
  stands : ∀ t ∈ tokens, t.StandsIn text
  ascending : tokens.Pairwise fun t u => t.position < u.position ∧ t.stop ≤ u.position
  reaches : ReachesTo text tokens fault?
  runs : ∀ t ∈ tokens, t.kind = .number ∨ t.kind = .word → ∀ i j, i ≤ t.position → t.stop ≤ j →
    j ≤ text.length → t.kind.Reads (text.extract i j) → i = t.position ∧ j = t.stop

/-- What a lexer hands out when it is advanced up to the end or to a fault. -/
inductive Lexer.HandsOut : Lexer → List Token → Option Fault → Prop where
  | none {l l' : Lexer} : l.advance = (.ok none, l') → HandsOut l [] none
  | fault {l l' : Lexer} {f : Fault} : l.advance = (.error f, l') → HandsOut l [] (some f)
  | next {l l' : Lexer} {t : Token} {tokens : List Token} {fault? : Option Fault} :
      l.advance = (.ok (some t), l') → HandsOut l' tokens fault? →
      HandsOut l (t :: tokens) fault?

namespace TokenStream

/-- The fault that the tokens end with. -/
def fault? (s : TokenStream) : Option Fault :=
  match s.ending with
  | .fault ch n => some (.lexical ch n)
  | _ => none

theorem handsOut_iff (s : TokenStream) (current : Option Token) (tokens : List Token)
    (f? : Option Fault) :
    Lexer.HandsOut ⟨s, current, false⟩ tokens f? ↔ tokens = s.toList ∧ f? = s.fault? := by
  induction s generalizing current tokens with
  | done n =>
      constructor
      · rintro (h | h | h)
        · exact ⟨rfl, rfl⟩
        · cases h
        · cases h
      · rintro ⟨rfl, rfl⟩
        exact .none rfl
  | fault ch n =>
      constructor
      · rintro (h | h | h)
        · cases h
        · cases h
          exact ⟨rfl, rfl⟩
        · cases h
      · rintro ⟨rfl, rfl⟩
        exact .fault rfl
  | token t rest ih =>
      constructor
      · rintro (h | h | ⟨h, hrest⟩)
        · cases h
        · cases h
        · cases h
          obtain ⟨rfl, rfl⟩ := (ih _ _).mp hrest
          exact ⟨rfl, rfl⟩
      · rintro ⟨rfl, rfl⟩
        exact .next rfl ((ih _ _).mpr ⟨rfl, rfl⟩)

end TokenStream

section Standing

variable {before tail more : List Char} {first : Char} {kind : TokenKind}

/-- The part of a text from a place on. -/
theorem extract_append (before rest : List Char) (j : Nat) :
    (before ++ rest).extract before.length j = rest.take (j - before.length) := by
  rw [List.extract, List.drop_left]

theorem standsIn_of_scan? (h : scan? first (more ++ tail) = some (kind, more, tail)) :
    (⟨kind, String.ofList (first :: more), before.length⟩ : Token).StandsIn
      (before ++ first :: (more ++ tail)) where
  nonempty := by
    rw [String.length_ofList, List.length_cons]
    exact Nat.succ_pos more.length
  slice := by
    rw [TokenStream.stop_cut, extract_append, String.toList_ofList]
    rw [show before.length + 1 + more.length - before.length = more.length + 1 by omega]
    simp
  reads := by
    rw [String.toList_ofList]
    exact reads_of_scan? h
  longest := by
    intro j hstop hj
    rw [TokenStream.stop_cut] at hstop
    obtain ⟨d, rfl⟩ := Nat.exists_eq_add_of_lt hstop
    cases tail with
    | nil =>
        simp only [List.append_nil, List.length_append, List.length_cons] at hj
        omega
    | cons c tail =>
        rw [extract_append, show before.length + 1 + more.length + d + 1 - before.length
          = more.length + (d + 1) + 1 by omega, List.take_succ_cons, List.take_length_add_append,
          List.take_succ_cons]
        exact not_reads_of_scan? h
  quoted := by
    intro quote hquote
    rw [TokenStream.stop_cut, String.toList_ofList]
    rcases scan?_cases h with ⟨rfl, -, -⟩ | ⟨rfl, -, -⟩ | ⟨hkind, hspan⟩ | ⟨rfl, -, -⟩ |
      ⟨rfl, -, -⟩
    · cases hquote
    · cases hquote
    · obtain rfl : first = quote := Option.some.inj (hkind.symm.trans hquote)
      obtain ⟨body, hbody, rfl | ⟨rfl, rfl⟩⟩ := spanQuoted_eq hspan
      · exact ⟨body, hbody, .inl rfl⟩
      · refine ⟨more, hbody, .inr ⟨rfl, ?_⟩⟩
        simp only [List.append_nil, List.length_append, List.length_cons]
        omega
    · cases hquote
    · cases hquote

end Standing

namespace TokenStream

theorem standsIn_of_mem_cut {n : Nat} {cs : List Char} {t : Token} (h : t ∈ (cut n cs).toList) :
    n ≤ t.position ∧ ∀ before : List Char, before.length = n → t.StandsIn (before ++ cs) := by
  induction n, cs using cut_induction with
  | nil n =>
      rw [cut_nil] at h
      cases h
  | blank n c cs hblank ih =>
      rw [cut_of_blank hblank] at h
      obtain ⟨hle, hstands⟩ := ih h
      refine ⟨by omega, fun before hbefore => ?_⟩
      rw [List.append_cons]
      exact hstands (before ++ [c]) (by simp [hbefore])
  | token n first rest hblank ih =>
      rw [cut_of_not_blank hblank, cutToken] at h
      cases hscan : scan? first rest with
      | none =>
          rw [hscan] at h
          cases h
      | some scanned =>
          obtain ⟨kind, more, tail⟩ := scanned
          rw [hscan] at h
          obtain rfl : more ++ tail = rest := scan?_append hscan
          rcases List.mem_cons.mp h with rfl | hbehind
          · refine ⟨Nat.le_refl n, fun before hbefore => ?_⟩
            subst hbefore
            exact standsIn_of_scan? hscan
          · obtain ⟨hle, hstands⟩ := ih kind more tail hscan hbehind
            refine ⟨by omega, fun before hbefore => ?_⟩
            have hsplit : before ++ first :: (more ++ tail) = before ++ first :: more ++ tail := by
              simp
            rw [hsplit]
            refine hstands (before ++ first :: more) ?_
            rw [List.length_append, List.length_cons, hbefore]
            omega

theorem ascending_cut (n : Nat) (cs : List Char) :
    (cut n cs).toList.Pairwise fun t u => t.position < u.position ∧ t.stop ≤ u.position := by
  induction n, cs using cut_induction with
  | nil n =>
      rw [cut_nil]
      exact .nil
  | blank n c cs hblank ih =>
      rw [cut_of_blank hblank]
      exact ih
  | token n first rest hblank ih =>
      rw [cut_of_not_blank hblank, cutToken]
      cases hscan : scan? first rest with
      | none => exact .nil
      | some scanned =>
          obtain ⟨kind, more, tail⟩ := scanned
          refine .cons (fun u hu => ?_) (ih kind more tail hscan)
          have hle := (standsIn_of_mem_cut hu).1
          rw [stop_cut]
          refine ⟨Nat.lt_of_lt_of_le ?_ hle, hle⟩
          show n < n + 1 + more.length
          omega

/-- Between the tokens and up to where they end there are only blanks. -/
theorem blank_or_mem_cut {n i : Nat} {cs : List Char} {c : Char} (hc : cs[i]? = some c)
    (hi : n + i < (cut n cs).ending.position) :
    Text.isBlank c = true ∨ ∃ t ∈ (cut n cs).toList, t.position ≤ n + i ∧ n + i < t.stop := by
  induction n, cs using cut_induction generalizing i with
  | nil => cases hc
  | blank n d cs hblank ih =>
      rw [cut_of_blank hblank] at hi ⊢
      cases i with
      | zero =>
          rw [List.getElem?_cons_zero, Option.some.injEq] at hc
          exact .inl (hc ▸ hblank)
      | succ i =>
          rw [List.getElem?_cons_succ] at hc
          rw [show n + (i + 1) = n + 1 + i by omega] at hi ⊢
          exact ih hc hi
  | token n first rest hblank ih =>
      rw [cut_of_not_blank hblank, cutToken] at hi ⊢
      cases hscan : scan? first rest with
      | none =>
          rw [hscan] at hi
          simp only [ending, position] at hi
          omega
      | some scanned =>
          obtain ⟨kind, more, tail⟩ := scanned
          rw [hscan] at hi
          obtain rfl : more ++ tail = rest := scan?_append hscan
          by_cases hmore : i < 1 + more.length
          · refine .inr ⟨_, List.mem_cons_self, Nat.le_add_right n i, ?_⟩
            rw [stop_cut]
            omega
          · obtain ⟨d, rfl⟩ := Nat.exists_eq_add_of_le (Nat.not_lt.mp hmore)
            rw [show n + (1 + more.length + d) = n + 1 + more.length + d by omega] at hi ⊢
            rw [show 1 + more.length + d = more.length + d + 1 by omega, List.getElem?_cons_succ,
              List.getElem?_append_right (Nat.le_add_right _ _), Nat.add_sub_cancel_left] at hc
            rcases ih kind more tail hscan hc hi with h | ⟨t, ht, hlies⟩
            · exact .inl h
            · exact .inr ⟨t, List.mem_cons_of_mem _ ht, hlies⟩

/-- The character that the tokens break off at is in the text, behind them all, and starts none. -/
theorem of_ending_cut_eq_fault {n m : Nat} {cs : List Char} {ch : Char}
    (h : (cut n cs).ending = .fault ch m) :
    n ≤ m ∧ cs[m - n]? = some ch ∧ (∀ t ∈ (cut n cs).toList, t.stop ≤ m) ∧
      ∀ kind more, ¬TokenKind.Reads kind (ch :: more) := by
  induction n, cs using cut_induction with
  | nil n =>
      rw [cut_nil] at h
      cases h
  | blank n c cs hblank ih =>
      rw [cut_of_blank hblank] at h ⊢
      obtain ⟨hle, hc, hrest⟩ := ih h
      refine ⟨by omega, ?_, hrest⟩
      rwa [show m - n = m - (n + 1) + 1 by omega, List.getElem?_cons_succ]
  | token n first rest hblank ih =>
      rw [cut_of_not_blank hblank, cutToken] at h ⊢
      cases hscan : scan? first rest with
      | none =>
          rw [hscan] at h
          cases h
          refine ⟨Nat.le_refl _, by simp, ?_, not_reads_of_scan?_eq_none hscan⟩
          exact fun t ht => absurd ht List.not_mem_nil
      | some scanned =>
          obtain ⟨kind, more, tail⟩ := scanned
          rw [hscan] at h
          obtain ⟨hle, hc, htokens, hnone⟩ := ih kind more tail hscan h
          obtain rfl : more ++ tail = rest := scan?_append hscan
          refine ⟨by omega, ?_, fun t ht => ?_, hnone⟩
          · rwa [show m - n = more.length + (m - (n + 1 + more.length)) + 1 by omega,
              List.getElem?_cons_succ, List.getElem?_append_right (Nat.le_add_right _ _),
              Nat.add_sub_cancel_left]
          · rcases List.mem_cons.mp ht with rfl | ht
            · rw [stop_cut]
              omega
            · exact htokens t ht

theorem reachesTo_cut (cs : List Char) : ReachesTo cs (cut 0 cs).toList (cut 0 cs).fault? := by
  have hblank : BlankBetween cs (cut 0 cs).toList (cut 0 cs).ending.position := by
    intro i c hi hc
    rw [← Nat.zero_add i] at hi ⊢
    exact blank_or_mem_cut hc hi
  cases hend : (cut 0 cs).ending with
  | token first rest => exact absurd hend (ending_ne_token _ first rest)
  | done m =>
      rw [fault?, hend]
      rw [hend, position, eq_of_ending_cut hend, Nat.zero_add] at hblank
      exact hblank
  | fault ch m =>
      rw [fault?, hend]
      rw [hend, position] at hblank
      obtain ⟨-, hch, hstop, hnone⟩ := of_ending_cut_eq_fault hend
      exact ⟨ch, m, rfl, hch, hblank, hstop, hnone⟩

end TokenStream

/-! ## Runs -/

section Runs

variable {text : List Char} {tokens : List Token} {t u : Token}

theorem mem_extract {i j k : Nat} {c : Char} (hik : i ≤ k) (hkj : k < j)
    (hc : text[k]? = some c) : c ∈ text.extract i j := by
  apply List.mem_of_getElem? (i := k - i)
  rw [List.extract, List.getElem?_take_of_lt (by omega), List.getElem?_drop,
    Nat.add_sub_cancel' hik, hc]

theorem extract_eq_cons {i j : Nat} {c : Char} (hij : i < j) (hc : text[i]? = some c) :
    text.extract i j = c :: text.extract (i + 1) j := by
  obtain ⟨hi, rfl⟩ := List.getElem?_eq_some_iff.mp hc
  rw [List.extract, List.drop_eq_getElem_cons hi, show j - i = j - (i + 1) + 1 by omega,
    List.take_succ_cons, List.extract]

theorem Token.StandsIn.extract_succ (ht : t.StandsIn text) {d : Char}
    (hd : text[t.stop]? = some d) :
    text.extract t.position (t.stop + 1) = t.text.toList ++ [d] := by
  have hle : t.position ≤ t.stop := Nat.le_add_right _ _
  rw [← ht.slice, List.extract, List.extract, Nat.succ_sub hle, List.take_add_one, List.getElem?_drop,
    Nat.add_sub_cancel' hle, hd, Option.toList_some]

theorem Token.StandsIn.getElem?_toList (ht : t.StandsIn text) {k : Nat}
    (hk : k < t.text.length) : t.text.toList[k]? = text[t.position + k]? := by
  rw [← ht.slice, List.extract, Token.stop, Nat.add_sub_cancel_left,
    List.getElem?_take_of_lt hk, List.getElem?_drop]

/-- The last character of a token stands before the place where it stops. -/
theorem Token.StandsIn.getElem?_stop (ht : t.StandsIn text) {c : Char}
    (hc : t.text.toList.getLast? = some c) : text[t.stop - 1]? = some c := by
  have hpos := ht.nonempty
  rw [List.getLast?_eq_getElem?, String.length_toList, ht.getElem?_toList (by omega)] at hc
  rwa [Token.stop, Nat.add_sub_assoc hpos]

theorem Token.StandsIn.stop_le (ht : t.StandsIn text) : t.stop ≤ text.length := by
  have hpos := ht.nonempty
  have hlast := ht.getElem?_stop (List.getLast?_eq_some_getLast (l := t.text.toList) (by
    intro hnil
    rw [← String.length_toList, hnil] at hpos
    exact absurd hpos (Nat.lt_irrefl 0)))
  obtain ⟨hlt, -⟩ := List.getElem?_eq_some_iff.mp hlast
  rw [Token.stop] at hlt ⊢
  omega

theorem continuesWord_of_reads {kind : TokenKind} {cs : List Char}
    (hkind : kind = .number ∨ kind = .word) (h : kind.Reads cs) :
    ∀ c ∈ cs, continuesWord c = true := by
  intro c hc
  rcases hkind with rfl | rfl
  · exact (signs_of_isDigit (h.2 c hc)).2.2.2.2.2
  · obtain ⟨first, more, rfl, hfirst, hmore⟩ := h
    rcases List.mem_cons.mp hc with rfl | hc
    · exact continuesWord_of_startsWord hfirst
    · exact hmore c hc

theorem not_continuesWord_of_reads_symbol {cs : List Char} (h : TokenKind.symbol.Reads cs) :
    ∀ c ∈ cs, continuesWord c = false := by
  intro c hc
  rcases h with ⟨d, hd, rfl⟩ | ⟨d, hd, rfl | rfl⟩
  · exact List.mem_singleton.mp hc ▸ not_continuesWord_of_sign (.inl hd)
  · exact List.mem_singleton.mp hc ▸ not_continuesWord_of_sign (.inr hd)
  · rcases List.mem_pair.mp hc with rfl | rfl
    · exact not_continuesWord_of_sign (.inr hd)
    · exact not_continuesWord_of_sign (.inr rfl)

/-- Only from inside a number the characters of a word go on to behind the token. -/
theorem Token.StandsIn.kind_of_goes_on (ht : t.StandsIn text) {i j : Nat}
    (hposition : t.position ≤ i) (hi : i < t.stop) (hj : t.stop < j) (hlength : j ≤ text.length)
    (hrun : ∀ c ∈ text.extract i j, continuesWord c = true) : t.kind = .number := by
  have hsome : ∀ k, k < text.length → ∃ c, text[k]? = some c :=
    fun k hk => ⟨text[k], List.getElem?_eq_getElem hk⟩
  have hquoted : ∀ quote ∈ t.kind.quote?, continuesWord quote = true := by
    intro quote hmem
    obtain ⟨body, -, hclosed | ⟨-, hend⟩⟩ := ht.quoted quote hmem
    · have hlast := ht.getElem?_stop (c := quote) (by
        rw [hclosed, ← List.cons_append, List.getLast?_concat])
      exact hrun quote (mem_extract (by omega) (by omega) hlast)
    · omega
  have hreads := ht.reads
  cases hkind : t.kind with
  | symbol =>
      obtain ⟨c, hc⟩ := hsome i (by omega)
      rw [hkind] at hreads
      have hsign := not_continuesWord_of_reads_symbol hreads c
        (ht.slice ▸ mem_extract hposition hi hc)
      rw [hrun c (mem_extract (Nat.le_refl i) (by omega) hc)] at hsign
      cases hsign
  | string => exact absurd (hquoted '\'' (hkind ▸ rfl)) (by decide)
  | quotedName => exact absurd (hquoted '"' (hkind ▸ rfl)) (by decide)
  | number => rfl
  | word =>
      obtain ⟨d, hd⟩ := hsome t.stop (by omega)
      have hlonger := ht.longest _ (Nat.lt_succ_self t.stop) (by omega)
      rw [ht.extract_succ hd, hkind] at hlonger
      rw [hkind] at hreads
      have hnext := hrun d (mem_extract (Nat.le_of_lt hi) hj hd)
      exact absurd (hreads.word_append hnext) hlonger

/-- No number and no word reaches from inside a token to behind it. -/
theorem Token.StandsIn.not_reads_of_goes_on (ht : t.StandsIn text) {kind : TokenKind}
    (hkind : kind = .number ∨ kind = .word) {i j : Nat} (hposition : t.position ≤ i)
    (hi : i < t.stop) (hj : t.stop < j) (hlength : j ≤ text.length) :
    ¬kind.Reads (text.extract i j) := by
  intro hreads
  have hnumber := ht.kind_of_goes_on hposition hi hj hlength (continuesWord_of_reads hkind hreads)
  obtain ⟨c, hc⟩ : ∃ c, text[i]? = some c := ⟨text[i], List.getElem?_eq_getElem (by omega)⟩
  obtain ⟨d, hd⟩ : ∃ d, text[t.stop]? = some d :=
    ⟨text[t.stop], List.getElem?_eq_getElem (by omega)⟩
  have htreads := ht.reads
  have hlonger := ht.longest _ (Nat.lt_succ_self t.stop) (by omega)
  rw [ht.extract_succ hd, hnumber] at hlonger
  rw [hnumber] at htreads
  rcases hkind with rfl | rfl
  · have hnext := hreads.2 d (mem_extract (Nat.le_of_lt hi) hj hd)
    exact hlonger (htreads.number_append hnext)
  · obtain ⟨first, more, hextract, hfirst, -⟩ := hreads
    rw [extract_eq_cons (by omega) hc] at hextract
    obtain ⟨rfl, -⟩ := List.cons.inj hextract
    have hdigit := htreads.2 c (ht.slice ▸ mem_extract hposition hi hc)
    rw [(signs_of_isDigit hdigit).2.2.2.2.1] at hfirst
    cases hfirst

theorem eq_or_before_of_ascending
    (h : tokens.Pairwise fun t u => t.position < u.position ∧ t.stop ≤ u.position)
    (ht : t ∈ tokens) (hu : u ∈ tokens) : t = u ∨ t.stop ≤ u.position ∨ u.stop ≤ t.position := by
  induction h with
  | nil => cases ht
  | cons hfirst _ ih =>
      rcases List.mem_cons.mp ht with rfl | ht' <;> rcases List.mem_cons.mp hu with rfl | hu'
      · exact .inl rfl
      · exact .inr (.inl (hfirst u hu').2)
      · exact .inr (.inr (hfirst t ht').2)
      · exact ih ht' hu'

/-- Numbers and words are runs: nothing of their class that they are part of is longer. -/
theorem eq_of_reads_extract {n : Nat} (hstands : ∀ t ∈ tokens, t.StandsIn text)
    (hascending : tokens.Pairwise fun t u => t.position < u.position ∧ t.stop ≤ u.position)
    (hblank : BlankBetween text tokens n) (ht : t ∈ tokens) (hn : t.stop ≤ n)
    (hkind : t.kind = .number ∨ t.kind = .word) {i j : Nat} (hi : i ≤ t.position)
    (hj : t.stop ≤ j) (hlength : j ≤ text.length) (hreads : t.kind.Reads (text.extract i j)) :
    i = t.position ∧ j = t.stop := by
  have hpos := (hstands t ht).nonempty
  have hstop : t.position < t.stop := by
    rw [Token.stop]
    omega
  rcases Nat.eq_or_lt_of_le hi with rfl | hlt
  · refine ⟨rfl, (Nat.eq_or_lt_of_le hj).elim Eq.symm fun hlonger => ?_⟩
    exact absurd hreads ((hstands t ht).longest j hlonger hlength)
  · exfalso
    obtain ⟨c, hc⟩ : ∃ c, text[i]? = some c := ⟨text[i], List.getElem?_eq_getElem (by omega)⟩
    rcases hblank i c (by omega) hc with hwhite | ⟨u, hu, hbegins, hends⟩
    · rw [extract_eq_cons (by omega) hc] at hreads
      exact not_reads_of_scan?_eq_none (scan?_of_blank hwhite []) _ _ hreads
    · have hbefore : u.stop ≤ t.position := by
        rcases eq_or_before_of_ascending hascending hu ht with rfl | hbefore | hbefore
        · omega
        · exact hbefore
        · omega
      exact (hstands u hu).not_reads_of_goes_on hkind hbegins hends (by omega) hlength hreads

end Runs

theorem isTokenisation_cut (text : List Char) :
    IsTokenisation text (TokenStream.cut 0 text).toList (TokenStream.cut 0 text).fault? := by
  have hstands : ∀ t ∈ (TokenStream.cut 0 text).toList, t.StandsIn text :=
    fun t ht => (TokenStream.standsIn_of_mem_cut ht).2 [] rfl
  have hascending := TokenStream.ascending_cut 0 text
  have hreaches := TokenStream.reachesTo_cut text
  refine ⟨hstands, hascending, hreaches, fun t ht hkind i j hi hj hlength hreads => ?_⟩
  cases hfault : (TokenStream.cut 0 text).fault? with
  | none =>
      rw [hfault] at hreaches
      exact eq_of_reads_extract hstands hascending hreaches ht (hstands t ht).stop_le hkind hi hj
        hlength hreads
  | some f =>
      rw [hfault] at hreaches
      obtain ⟨ch, n, -, -, hblank, hstop, -⟩ := hreaches
      exact eq_of_reads_extract hstands hascending hblank ht (hstop t ht) hkind hi hj hlength hreads

/-- Advanced again and again, a lexer comes to the end or to a fault, always to the same, and what
it handed out before is the text cut into tokens without loss. -/
theorem exists_handsOut_ofText (sql : String) :
    ∃ tokens fault?, (Lexer.ofText sql).HandsOut tokens fault? ∧
      (∀ tokens' fault?', (Lexer.ofText sql).HandsOut tokens' fault?' →
        tokens' = tokens ∧ fault?' = fault?) ∧
      IsTokenisation sql.toList tokens fault? :=
  ⟨(TokenStream.ofText sql).toList, (TokenStream.ofText sql).fault?,
    (TokenStream.handsOut_iff _ none _ _).mpr ⟨rfl, rfl⟩,
    fun _ _ h => (TokenStream.handsOut_iff _ none _ _).mp h,
    isTokenisation_cut sql.toList⟩

end OnePassSql

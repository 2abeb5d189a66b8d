import OnePassSql.Proofs.Token.Cutting

/-!
The classes of tokens as sets of texts, without the scanner that finds them; and the scanner against
them: it finds the longest text of a class, or nothing of any class starts there.
-/

namespace OnePassSql

/-! ## The classes -/

/-- A quote, a text without it, and the quote again unless the text breaks off before it. -/
def IsQuoted (quote : Char) (cs : List Char) : Prop :=
  ∃ body, quote ∉ body ∧ (cs = quote :: body ∨ cs = quote :: (body ++ [quote]))

/-- The texts that a class of tokens consists of. -/
def TokenKind.Reads : TokenKind → List Char → Prop
  | .symbol, cs => (∃ c, isPunctuation c = true ∧ cs = [c]) ∨
      ∃ c, isComparison c = true ∧ (cs = [c] ∨ cs = [c, '='])
  | .string, cs => IsQuoted '\'' cs
  | .quotedName, cs => IsQuoted '"' cs
  | .number, cs => cs ≠ [] ∧ ∀ c ∈ cs, c.isDigit = true
  | .word, cs => ∃ first more, cs = first :: more ∧ startsWord first = true ∧
      ∀ c ∈ more, continuesWord c = true

section Signs

variable {c : Char}

theorem not_comparison_of_punctuation (h : isPunctuation c = true) : isComparison c = false := by
  simp only [isPunctuation, List.contains_iff_mem, List.mem_cons, List.not_mem_nil, or_false] at h
  rcases h with rfl | rfl | rfl | rfl | rfl | rfl | rfl | rfl | rfl | rfl | rfl | rfl | rfl | rfl <;>
    decide

theorem not_continuesWord_of_sign (h : isPunctuation c = true ∨ isComparison c = true) :
    continuesWord c = false := by
  simp only [isPunctuation, isComparison, List.contains_iff_mem, List.mem_cons, List.not_mem_nil,
    or_false] at h
  rcases h with h | h
  · rcases h with rfl | rfl | rfl | rfl | rfl | rfl | rfl | rfl | rfl | rfl | rfl | rfl | rfl |
      rfl <;> decide
  · rcases h with rfl | rfl | rfl | rfl <;> decide

theorem continuesWord_of_startsWord (h : startsWord c = true) : continuesWord c = true := by
  unfold startsWord at h
  unfold continuesWord
  rcases Bool.or_eq_true_iff.mp h with hletter | hlow
  · simp [hletter]
  · simp [hlow]

/-- What holds of the characters of a range is settled one by one. -/
theorem of_forall_between (P : Char → Prop) {low high : Nat}
    (h : ∀ d, d < high + 1 - low → P (Char.ofNat (low + d))) (hlow : low ≤ c.toNat)
    (hhigh : c.toNat ≤ high) : P c := by
  have hc := h (c.toNat - low) (by omega)
  rwa [Nat.add_sub_cancel' hlow, Char.ofNat_toNat] at hc

/-- Digits stand in numbers and further behind in words. -/
theorem signs_of_isDigit (h : c.isDigit = true) :
    isPunctuation c = false ∧ isComparison c = false ∧ c ≠ '\'' ∧ c ≠ '"' ∧
      startsWord c = false ∧ continuesWord c = true := by
  simp only [Char.isDigit, Bool.and_eq_true, decide_eq_true_eq, ge_iff_le] at h
  have hlow : 48 ≤ c.toNat := UInt32.le_iff_toNat_le.mp h.1
  have hhigh : c.toNat ≤ 57 := UInt32.le_iff_toNat_le.mp h.2
  exact of_forall_between (fun c => isPunctuation c = false ∧ isComparison c = false ∧ c ≠ '\'' ∧
    c ≠ '"' ∧ startsWord c = false ∧ continuesWord c = true) (by decide) hlow hhigh

/-- No two ranges of the lists meet. -/
def Text.apart (ranges others : List (Nat × Nat)) : Bool :=
  ranges.all fun r => others.all fun s => Nat.blt r.2 s.1 || Nat.blt s.2 r.1

theorem Text.not_within_of_apart {ranges others : List (Nat × Nat)}
    (hapart : apart ranges others = true) (h : within ranges c = true) :
    within others c = false := by
  refine eq_false_of_ne_true fun hother => ?_
  obtain ⟨r, hr, hlow, hhigh⟩ := within_iff.mp h
  obtain ⟨s, hs, hlow', hhigh'⟩ := within_iff.mp hother
  have hrs := List.all_eq_true.mp (List.all_eq_true.mp hapart r hr) s hs
  rw [Bool.or_eq_true, Nat.blt_eq, Nat.blt_eq] at hrs
  omega

/-- No token starts with a blank. -/
theorem scan?_of_blank (h : Text.isBlank c = true) (rest : List Char) : scan? c rest = none := by
  obtain ⟨r, hr, hlow, hhigh⟩ := Text.within_iff.mp h
  have hranges : ∀ r ∈ Text.blankRanges, ∀ d, d < r.2 + 1 - r.1 →
      isPunctuation (Char.ofNat (r.1 + d)) = false ∧ isComparison (Char.ofNat (r.1 + d)) = false ∧
        Char.ofNat (r.1 + d) ≠ '\'' ∧ Char.ofNat (r.1 + d) ≠ '"' ∧ Char.ofNat (r.1 + d) ≠ '_' ∧
        (Char.ofNat (r.1 + d)).isAlpha = false ∧ (Char.ofNat (r.1 + d)).isDigit = false := by
    decide
  obtain ⟨hpunctuation, hcomparison, hstring, hname, hunderscore, halpha, hdigit⟩ :=
    of_forall_between (fun c => isPunctuation c = false ∧ isComparison c = false ∧ c ≠ '\'' ∧
      c ≠ '"' ∧ c ≠ '_' ∧ c.isAlpha = false ∧ c.isDigit = false) (hranges r hr) hlow hhigh
  have hletter : Text.isLetter c = false := by
    -- The letters beyond ASCII are too many to be looked through for every blank.
    rw [Text.isLetter, halpha, Text.not_within_of_apart (by decide +kernel) h, ite_self]
  simp [scan?, startsWord, hpunctuation, hcomparison, hstring, hname, hunderscore, hletter, hdigit]

end Signs

/-! ## The scanner and the classes -/

section Scanning

variable {first : Char} {rest more tail : List Char} {kind : TokenKind}

theorem isQuoted_cons {quote : Char} :
    IsQuoted quote (first :: more) ↔
      first = quote ∧ ∃ body, quote ∉ body ∧ (more = body ∨ more = body ++ [quote]) := by
  constructor
  · rintro ⟨body, hbody, h | h⟩
    · obtain ⟨rfl, rfl⟩ := List.cons.inj h
      exact ⟨rfl, more, hbody, .inl rfl⟩
    · obtain ⟨rfl, rfl⟩ := List.cons.inj h
      exact ⟨rfl, body, hbody, .inr rfl⟩
  · rintro ⟨rfl, body, hbody, rfl | rfl⟩
    · exact ⟨more, hbody, .inl rfl⟩
    · exact ⟨body, hbody, .inr rfl⟩

/-- The quoted text is the part up to the first quote, or the whole text if there is none. -/
theorem spanQuoted_eq {quote : Char} (h : spanQuoted quote rest = (more, tail)) :
    ∃ body, quote ∉ body ∧ (more = body ++ [quote] ∨ more = body ∧ tail = []) := by
  by_cases hmem : quote ∈ rest
  · obtain ⟨body, behind, rfl, hbody⟩ := List.eq_append_cons_of_mem hmem
    rw [spanQuoted_append_cons hbody] at h
    exact ⟨body, hbody, .inl (Prod.mk.inj h).1.symm⟩
  · rw [spanQuoted_of_not_mem hmem] at h
    obtain ⟨rfl, rfl⟩ := Prod.mk.inj h
    exact ⟨rest, hmem, .inr ⟨rfl, rfl⟩⟩

/-- What the scanner found, by class. -/
theorem scan?_cases (h : scan? first rest = some (kind, more, tail)) :
    (kind = .symbol ∧ isPunctuation first = true ∧ more = []) ∨
    (kind = .symbol ∧ isComparison first = true ∧
      (more = ['='] ∨ more = [] ∧ tail.head? ≠ some '=')) ∨
    (kind.quote? = some first ∧ spanQuoted first rest = (more, tail)) ∨
    (kind = .word ∧ startsWord first = true ∧ rest.takeWhile continuesWord = more ∧
      rest.dropWhile continuesWord = tail) ∨
    (kind = .number ∧ first.isDigit = true ∧ rest.takeWhile Char.isDigit = more ∧
      rest.dropWhile Char.isDigit = tail) := by
  unfold scan? at h
  split at h
  next hpunctuation =>
    simp only [Option.some.injEq, Prod.mk.injEq] at h
    exact .inl ⟨h.1.symm, hpunctuation, h.2.1.symm⟩
  split at h
  next hcomparison =>
    refine .inr (.inl ?_)
    split at h
    next =>
      simp only [Option.some.injEq, Prod.mk.injEq] at h
      exact ⟨h.1.symm, hcomparison, .inl h.2.1.symm⟩
    next hnot =>
      simp only [Option.some.injEq, Prod.mk.injEq] at h
      obtain ⟨rfl, rfl, rfl⟩ := h
      refine ⟨rfl, hcomparison, .inr ⟨rfl, fun hhead => ?_⟩⟩
      obtain ⟨tail, rfl⟩ := List.head?_eq_some_iff.mp hhead
      exact hnot tail rfl
  split at h
  next hquote =>
    simp only [Option.some.injEq, Prod.mk.injEq] at h
    exact .inr (.inr (.inl ⟨by rw [← h.1, hquote]; rfl, h.2⟩))
  split at h
  next hquote =>
    simp only [Option.some.injEq, Prod.mk.injEq] at h
    exact .inr (.inr (.inl ⟨by rw [← h.1, hquote]; rfl, h.2⟩))
  split at h
  next hword =>
    simp only [Option.some.injEq, Prod.mk.injEq] at h
    exact .inr (.inr (.inr (.inl ⟨h.1.symm, hword, h.2⟩)))
  split at h
  next hdigit =>
    simp only [Option.some.injEq, Prod.mk.injEq] at h
    exact .inr (.inr (.inr (.inr ⟨h.1.symm, hdigit, h.2⟩)))
  next => cases h

theorem mem_of_takeWhile_eq {p : Char → Bool} (h : rest.takeWhile p = more) :
    ∀ c ∈ more, p c = true := by
  rw [← h]
  exact fun c hc => List.mem_takeWhile_imp hc

theorem TokenKind.reads_of_quote? {quote : Char} {cs : List Char} (h : kind.quote? = some quote) :
    kind.Reads cs ↔ IsQuoted quote cs := by
  cases kind <;> simp only [TokenKind.quote?, reduceCtorEq, Option.some.injEq] at h <;> subst h <;>
    exact Iff.rfl

/-- A scanned token is in its class. -/
theorem reads_of_scan? (h : scan? first rest = some (kind, more, tail)) :
    kind.Reads (first :: more) := by
  rcases scan?_cases h with ⟨rfl, hsign, rfl⟩ | ⟨rfl, hsign, hmore⟩ | ⟨hkind, hspan⟩ |
    ⟨rfl, hfirst, hmore, -⟩ | ⟨rfl, hfirst, hmore, -⟩
  · exact .inl ⟨first, hsign, rfl⟩
  · refine .inr ⟨first, hsign, ?_⟩
    rcases hmore with rfl | ⟨rfl, -⟩
    · exact .inr rfl
    · exact .inl rfl
  · rw [TokenKind.reads_of_quote? hkind, isQuoted_cons]
    obtain ⟨body, hbody, hmore | ⟨hmore, -⟩⟩ := spanQuoted_eq hspan
    · exact ⟨rfl, body, hbody, .inr hmore⟩
    · exact ⟨rfl, body, hbody, .inl hmore⟩
  · exact ⟨first, more, rfl, hfirst, mem_of_takeWhile_eq hmore⟩
  · refine ⟨List.cons_ne_nil first more, fun c hc => ?_⟩
    rcases List.mem_cons.mp hc with rfl | hc
    · exact hfirst
    · exact mem_of_takeWhile_eq hmore c hc

/-- The first character that a run was cut before is not of the run's class. -/
theorem not_of_dropWhile_eq_cons {p : Char → Bool} {c : Char}
    (h : rest.dropWhile p = c :: tail) : p c = false := by
  have hhead := List.head?_dropWhile_not p rest
  rwa [h] at hhead

/-- A scanned token is the longest of its class. -/
theorem not_reads_of_scan? {c : Char} {extra : List Char}
    (h : scan? first rest = some (kind, more, c :: tail)) :
    ¬kind.Reads (first :: (more ++ c :: extra)) := by
  intro hreads
  rcases scan?_cases h with ⟨rfl, hsign, rfl⟩ | ⟨rfl, hsign, hmore⟩ | ⟨hkind, hspan⟩ |
    ⟨rfl, hfirst, -, htail⟩ | ⟨rfl, hfirst, -, htail⟩
  · rcases hreads with ⟨d, -, hd⟩ | ⟨d, hd, hd' | hd'⟩
    · simp at hd
    · simp at hd'
    · obtain ⟨rfl, -⟩ := List.cons.inj hd'
      rw [not_comparison_of_punctuation hsign] at hd
      cases hd
  · rcases hmore with rfl | ⟨rfl, hhead⟩
    · rcases hreads with ⟨d, -, hd⟩ | ⟨d, -, hd | hd⟩ <;> simp at hd
    · rcases hreads with ⟨d, -, hd⟩ | ⟨d, -, hd | hd⟩
      · simp at hd
      · simp at hd
      · obtain ⟨rfl, rfl⟩ : c = '=' ∧ extra = [] := by simpa using (List.cons.inj hd).2
        exact hhead rfl
  · rw [TokenKind.reads_of_quote? hkind, isQuoted_cons] at hreads
    obtain ⟨body, hbody, rfl | ⟨-, hnil⟩⟩ := spanQuoted_eq hspan
    · obtain ⟨-, body', hbody', hlong | hlong⟩ := hreads
      · exact hbody' (hlong ▸ by simp)
      · rw [List.append_assoc, List.singleton_append] at hlong
        obtain ⟨more', extra', hextra⟩ : ∃ more' d, c :: extra = more' ++ [d] :=
          ⟨_, _, (List.dropLast_concat_getLast (List.cons_ne_nil c extra)).symm⟩
        rw [hextra, ← List.cons_append, ← List.append_assoc] at hlong
        exact hbody' ((List.append_inj' hlong rfl).1 ▸ by simp)
    · cases hnil
  · obtain ⟨first', more', hcons, -, hall⟩ := hreads
    obtain ⟨-, rfl⟩ := List.cons.inj hcons
    have hc := hall c (by simp)
    rw [not_of_dropWhile_eq_cons htail] at hc
    cases hc
  · have hc := hreads.2 c (by simp)
    rw [not_of_dropWhile_eq_cons htail] at hc
    cases hc

/-- Where the scanner finds nothing, nothing of any class starts. -/
theorem not_reads_of_scan?_eq_none (h : scan? first rest = none) (kind : TokenKind)
    (more : List Char) : ¬kind.Reads (first :: more) := by
  intro hreads
  unfold scan? at h
  split at h
  next => cases h
  next hpunctuation =>
  split at h
  next => split at h <;> cases h
  next hcomparison =>
  split at h
  next => cases h
  next hstring =>
  split at h
  next => cases h
  next hname =>
  split at h
  next => cases h
  next hword =>
  split at h
  next => cases h
  next hdigit =>
    cases kind with
    | symbol =>
        rcases hreads with ⟨c, hc, hcs⟩ | ⟨c, hc, hcs | hcs⟩ <;> obtain ⟨rfl, -⟩ := List.cons.inj hcs
        · exact hpunctuation hc
        · exact hcomparison hc
        · exact hcomparison hc
    | string => exact hstring (isQuoted_cons.mp hreads).1
    | quotedName => exact hname (isQuoted_cons.mp hreads).1
    | number => exact hdigit (hreads.2 first List.mem_cons_self)
    | word =>
        obtain ⟨first', more', hcons, hfirst, -⟩ := hreads
        obtain ⟨rfl, -⟩ := List.cons.inj hcons
        exact hword hfirst

/-! ## What the scanner finds -/

/-- A quoted text that cannot be had longer is closed, or the last of all. -/
theorem spanQuoted_of_longest {quote : Char} (h : IsQuoted quote (first :: more))
    (hlongest : ∀ c ∈ rest.head?, ¬IsQuoted quote (first :: (more ++ [c]))) :
    spanQuoted quote (more ++ rest) = (more, rest) := by
  obtain ⟨rfl, body, hbody, rfl | rfl⟩ := isQuoted_cons.mp h
  · cases rest with
    | nil =>
        rw [List.append_nil]
        exact spanQuoted_of_not_mem hbody
    | cons c rest =>
        refine absurd (isQuoted_cons.mpr ⟨rfl, ?_⟩) (hlongest c rfl)
        by_cases hc : c = first
        · exact ⟨more, hbody, .inr (by rw [hc])⟩
        · exact ⟨more ++ [c], by simp [hbody, Ne.symm hc], .inl rfl⟩
  · rw [List.append_assoc, List.singleton_append]
    exact spanQuoted_append_cons hbody rest

theorem signs_of_startsWord (h : startsWord first = true) :
    isPunctuation first = false ∧ isComparison first = false ∧ first ≠ '\'' ∧ first ≠ '"' := by
  have hnot : ¬(isPunctuation first = true ∨ isComparison first = true) := fun hsign => by
    have hword := continuesWord_of_startsWord h
    rw [not_continuesWord_of_sign hsign] at hword
    cases hword
  rw [not_or, Bool.not_eq_true, Bool.not_eq_true] at hnot
  refine ⟨hnot.1, hnot.2, ?_, ?_⟩ <;> rintro rfl <;> exact absurd h (by decide)

theorem TokenKind.Reads.number_append {cs : List Char} {c : Char} (h : TokenKind.number.Reads cs)
    (hc : c.isDigit = true) : TokenKind.number.Reads (cs ++ [c]) := by
  refine ⟨by simp, fun d hd => ?_⟩
  rcases List.mem_append.mp hd with hd | hd
  · exact h.2 d hd
  · rwa [List.mem_singleton.mp hd]

theorem TokenKind.Reads.word_append {cs : List Char} {c : Char} (h : TokenKind.word.Reads cs)
    (hc : continuesWord c = true) : TokenKind.word.Reads (cs ++ [c]) := by
  obtain ⟨first, more, rfl, hfirst, hmore⟩ := h
  refine ⟨first, more ++ [c], rfl, hfirst, fun d hd => ?_⟩
  rcases List.mem_append.mp hd with hd | hd
  · exact hmore d hd
  · rwa [List.mem_singleton.mp hd]

/-- A text of a class that cannot be had longer is what the scanner finds. -/
theorem scan?_of_reads (h : kind.Reads (first :: more))
    (hlongest : ∀ c ∈ rest.head?, ¬kind.Reads (first :: (more ++ [c]))) :
    scan? first (more ++ rest) = some (kind, more, rest) := by
  unfold scan?
  cases kind with
  | symbol =>
      rcases h with ⟨c, hc, hcs⟩ | ⟨c, hc, hcs⟩
      · obtain ⟨rfl, rfl⟩ := List.cons.inj hcs
        rw [if_pos hc]
        rfl
      · have hsign : ¬isPunctuation c = true := fun hsign => by
          rw [not_comparison_of_punctuation hsign] at hc
          cases hc
        rcases hcs with hcs | hcs <;> obtain ⟨rfl, rfl⟩ := List.cons.inj hcs <;>
          rw [if_neg hsign, if_pos hc]
        · split
          next tail htail =>
            obtain rfl : rest = '=' :: tail := htail
            exact absurd (.inr ⟨first, hc, .inr rfl⟩) (hlongest '=' rfl)
          next => rfl
        · rfl
  | string =>
      obtain ⟨rfl, -⟩ := isQuoted_cons.mp h
      exact congrArg (fun found => some (TokenKind.string, found)) (spanQuoted_of_longest h hlongest)
  | quotedName =>
      obtain ⟨rfl, -⟩ := isQuoted_cons.mp h
      exact congrArg (fun found => some (TokenKind.quotedName, found))
        (spanQuoted_of_longest h hlongest)
  | number =>
      have hfirst := h.2 first List.mem_cons_self
      have hmore : ∀ c ∈ more, c.isDigit = true := fun c hc => h.2 c (List.mem_cons_of_mem _ hc)
      obtain ⟨hpunctuation, hcomparison, hstring, hname, hword, -⟩ := signs_of_isDigit hfirst
      have hwhole : (more ++ []).takeWhile Char.isDigit = more := by
        rwa [List.append_nil, List.takeWhile_eq_self_iff]
      have hstops : ∀ c ∈ rest.head?, c.isDigit = false := fun c hc =>
        eq_false_of_ne_true fun hdigit => hlongest c hc (h.number_append hdigit)
      obtain ⟨htake, hdrop⟩ := takeWhile_append_of_stops hwhole hstops
      simp [hpunctuation, hcomparison, hstring, hname, hword, hfirst, htake, hdrop]
  | word =>
      have hword := h
      obtain ⟨first', more', hcs, hfirst, hmore⟩ := hword
      obtain ⟨rfl, rfl⟩ := List.cons.inj hcs
      obtain ⟨hpunctuation, hcomparison, hstring, hname⟩ := signs_of_startsWord hfirst
      have hwhole : (more ++ []).takeWhile continuesWord = more := by
        rwa [List.append_nil, List.takeWhile_eq_self_iff]
      have hstops : ∀ c ∈ rest.head?, continuesWord c = false := fun c hc =>
        eq_false_of_ne_true fun hword => hlongest c hc (h.word_append hword)
      obtain ⟨htake, hdrop⟩ := takeWhile_append_of_stops hwhole hstops
      simp [hpunctuation, hcomparison, hstring, hname, hfirst, htake, hdrop]

/-- What the scanner finds is the next token. -/
theorem TokenStream.cut_of_scanned (h : scan? first rest = some (kind, more, tail)) (n : Nat) :
    cut n (first :: rest)
      = token ⟨kind, String.ofList (first :: more), n⟩ (cut (n + 1 + more.length) tail) := by
  refine cut_of_scan? (eq_false_of_ne_true fun hblank => ?_) h n
  rw [scan?_of_blank hblank] at h
  cases h

/-- A text of a class that cannot be had longer is the next token. -/
theorem TokenStream.cut_of_reads {text : String} (h : kind.Reads text.toList)
    (hlongest : ∀ c ∈ rest.head?, ¬kind.Reads (text.toList ++ [c])) (n : Nat) :
    cut n (text.toList ++ rest) = token ⟨kind, text, n⟩ (cut (n + text.length) rest) := by
  cases htext : text.toList with
  | nil =>
      rw [htext] at h
      cases kind <;> simp [TokenKind.Reads, IsQuoted] at h
  | cons first more =>
      rw [htext] at h hlongest
      have hlength : text.length = 1 + more.length := by
        rw [← String.length_toList, htext, List.length_cons, Nat.add_comm]
      rw [List.cons_append, cut_of_scanned (scan?_of_reads h hlongest), ← htext,
        String.ofList_toList, hlength, Nat.add_assoc]

/-- A text of a class is one token. -/
theorem TokenStream.ofText_of_reads {text : String} (h : kind.Reads text.toList) :
    ofText text = token ⟨kind, text, 0⟩ (done text.length) := by
  have hlongest : ∀ c ∈ ([] : List Char).head?, ¬kind.Reads (text.toList ++ [c]) := by simp
  have hcut := cut_of_reads h hlongest 0
  rwa [List.append_nil, cut_nil, Nat.zero_add] at hcut

end Scanning

/-! ## First characters in any case -/

/-- The characters that the texts of a class start with. -/
def TokenKind.startsWith : TokenKind → Char → Bool
  | .symbol, c => isPunctuation c || isComparison c
  | .string, c => c == '\''
  | .quotedName, c => c == '"'
  | .number, c => c.isDigit
  | .word, c => startsWord c

section Case

variable {c : Char} {kind : TokenKind}

theorem TokenKind.startsWith_of_reads {more : List Char} (h : kind.Reads (c :: more)) :
    kind.startsWith c = true := by
  cases kind with
  | symbol =>
      rcases h with ⟨c', hc, hcs⟩ | ⟨c', hc, hcs | hcs⟩ <;> obtain ⟨rfl, -⟩ := List.cons.inj hcs <;>
        simp [startsWith, hc]
  | string => exact beq_iff_eq.mpr (isQuoted_cons.mp h).1
  | quotedName => exact beq_iff_eq.mpr (isQuoted_cons.mp h).1
  | number => exact h.2 c List.mem_cons_self
  | word =>
      obtain ⟨first, rest, hcs, hfirst, -⟩ := h
      obtain ⟨rfl, -⟩ := List.cons.inj hcs
      exact hfirst

/-- The class does not hang on the case. -/
theorem TokenKind.startsWith_toUpper (kind : TokenKind) (c : Char) :
    kind.startsWith c.toUpper = kind.startsWith c := by
  by_cases hlower : 97 ≤ c.toNat ∧ c.toNat ≤ 122
  · cases kind <;>
      exact of_forall_between (fun c => startsWith _ c.toUpper = startsWith _ c)
        (by decide) hlower.1 hlower.2
  · congr 1
    unfold Char.toUpper
    rw [dif_neg]
    rintro ⟨hlow, hhigh⟩
    exact hlower ⟨UInt32.le_iff_toNat_le.mp hlow, UInt32.le_iff_toNat_le.mp hhigh⟩

/-- A token that reads as a word or sign is of a class that starts like it. -/
theorem TokenKind.startsWith_of_is {t : Token} {word : String} {more : List Char}
    (h : t.kind.Reads t.text.toList) (his : t.is word = true) (hword : word.toList = c :: more) :
    t.kind.startsWith c = true := by
  have hsame := eq_of_beq his
  rw [hword, List.map_cons] at hsame
  cases htext : t.text.toList with
  | nil =>
      rw [htext] at hsame
      cases hsame
  | cons d rest =>
      rw [htext] at h hsame
      rw [List.map_cons] at hsame
      rw [← startsWith_toUpper, ← (List.cons.inj hsame).1, startsWith_toUpper]
      exact startsWith_of_reads h

end Case

end OnePassSql

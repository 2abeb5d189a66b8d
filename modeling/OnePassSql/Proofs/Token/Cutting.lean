import Mathlib.Data.List.TakeWhile
import OnePassSql.Proofs.Alike.Streams

/-!
Texts are cut from the front, and a token is settled once the character behind it is known. So what
stands further behind does not show in it; and where one text ends behind a token, another one may
go on with a blank.
-/

namespace OnePassSql

/-! ## One token -/

/-- The quote that tokens of the class start with and are meant to end with. -/
def TokenKind.quote? : TokenKind → Option Char
  | .string => some '\''
  | .quotedName => some '"'
  | _ => none

/-- A quoted text has its closing quote. -/
def Token.Closed (t : Token) : Prop :=
  ∀ quote ∈ t.kind.quote?, 2 ≤ t.text.length ∧ t.text.toList.getLast? = some quote

instance : DecidablePred Token.Closed := fun t =>
  Option.decidableForallMem t.kind.quote?

/-- Behind the token `tail'` can stand in the place of `tail`: it starts with the same character, or
it starts with a blank where the text ended with a closed token. -/
def Token.CanPrecede (t : Token) (tail tail' : List Char) : Prop :=
  tail'.head? = tail.head? ∨ t.Closed ∧ tail = [] ∧ tail'.head? = some ' '

section Scanning

variable {first : Char} {more tail tail' : List Char} {kind : TokenKind} {n : Nat}

/-- A class of characters that a blank is not in still ends behind the token. -/
theorem Token.CanPrecede.stops {t : Token} {cs : List Char} (h : t.CanPrecede tail tail')
    {p : Char → Bool} (hblank : p ' ' = false) (htail : cs.dropWhile p = tail) :
    ∀ c ∈ tail'.head?, p c = false := by
  intro c hc
  rcases h with hsame | ⟨-, -, hspace⟩
  · have hhead := List.head?_dropWhile_not p cs
    rw [htail, ← hsame, Option.mem_def.mp hc] at hhead
    exact hhead
  · rw [Option.mem_def, hspace] at hc
    cases hc
    exact hblank

theorem takeWhile_append_of_stops {p : Char → Bool} (hmore : (more ++ tail).takeWhile p = more)
    (hstops : ∀ c ∈ tail'.head?, p c = false) :
    (more ++ tail').takeWhile p = more ∧ (more ++ tail').dropWhile p = tail' := by
  have hall : ∀ c ∈ more, p c = true := by
    rw [← hmore]
    exact fun c hc => List.mem_takeWhile_imp hc
  have hstop : tail'.takeWhile p = [] ∧ tail'.dropWhile p = tail' := by
    cases tail' with
    | nil => exact ⟨rfl, rfl⟩
    | cons c rest => simp [hstops c rfl]
  rw [List.takeWhile_append_of_pos hall, List.dropWhile_append_of_pos hall, hstop.1, hstop.2]
  exact ⟨List.append_nil more, rfl⟩

theorem spanQuoted_of_not_mem {quote : Char} {cs : List Char} (h : quote ∉ cs) :
    spanQuoted quote cs = (cs, []) := by
  induction cs with
  | nil => rfl
  | cons c cs ih =>
      rw [List.mem_cons, not_or] at h
      simp [spanQuoted, Ne.symm h.1, ih h.2]

theorem spanQuoted_append_cons {quote : Char} {body : List Char} (h : quote ∉ body)
    (rest : List Char) : spanQuoted quote (body ++ quote :: rest) = (body ++ [quote], rest) := by
  induction body with
  | nil => simp [spanQuoted]
  | cons c body ih =>
      rw [List.mem_cons, not_or] at h
      simp [spanQuoted, Ne.symm h.1, ih h.2]

/-- A quoted text that is closed, or behind which nothing changes, ends where it did. -/
theorem spanQuoted_append_of_closed {quote : Char}
    (h : spanQuoted quote (more ++ tail) = (more, tail))
    (hclosed : tail = [] → more.getLast? = some quote ∨ tail' = []) :
    spanQuoted quote (more ++ tail') = (more, tail') := by
  by_cases hmem : quote ∈ more ++ tail
  · obtain ⟨body, rest, hsplit, hbody⟩ := List.eq_append_cons_of_mem hmem
    rw [hsplit, spanQuoted_append_cons hbody] at h
    obtain ⟨rfl, -⟩ := Prod.mk.inj h
    rw [List.append_assoc, List.singleton_append]
    exact spanQuoted_append_cons hbody tail'
  · have hnone : quote ∉ more := fun hin => hmem (List.mem_append_left tail hin)
    rw [spanQuoted_of_not_mem hmem] at h
    obtain ⟨-, rfl⟩ := Prod.mk.inj h
    rcases hclosed rfl with hlast | rfl
    · exact absurd (List.mem_of_getLast? hlast) hnone
    · rw [List.append_nil]
      exact spanQuoted_of_not_mem hnone

theorem getLast?_of_closed {quote : Char}
    (h : (⟨kind, String.ofList (first :: more), n⟩ : Token).Closed) (hkind : quote ∈ kind.quote?) :
    more.getLast? = some quote := by
  obtain ⟨hlength, hlast⟩ := h quote hkind
  cases more with
  | nil => simp at hlength
  | cons c more => simpa [List.getLast?_cons_cons] using hlast

/-- Behind a sign of comparison only an equals sign belongs to it. -/
theorem scan?_append_of_comparison (hpunctuation : ¬isPunctuation first = true)
    (hcomparison : isComparison first = true)
    (h : scan? first (more ++ tail) = some (kind, more, tail))
    (hbehind : (⟨kind, String.ofList (first :: more), n⟩ : Token).CanPrecede tail tail') :
    scan? first (more ++ tail') = some (kind, more, tail') := by
  unfold scan? at h ⊢
  rw [if_neg hpunctuation, if_pos hcomparison] at h ⊢
  split at h
  next rest hrest =>
    simp only [Option.some.injEq, Prod.mk.injEq] at h
    obtain ⟨rfl, rfl, -⟩ := h
    rfl
  next hnot =>
    simp only [Option.some.injEq, Prod.mk.injEq] at h
    obtain ⟨rfl, rfl, -⟩ := h
    have htail : tail.dropWhile (· == '=') = tail := by
      cases tail with
      | nil => rfl
      | cons c rest =>
          have hc : c ≠ '=' := fun hc => hnot rest (by rw [hc]; rfl)
          simp [hc]
    have hstops := hbehind.stops (by decide) htail
    rw [List.nil_append]
    split
    next rest => exact absurd (hstops '=' rfl) (by decide)
    next => rfl

/-- What can stand behind a token does not show in it. -/
theorem scan?_append_of_canPrecede (h : scan? first (more ++ tail) = some (kind, more, tail))
    (hbehind : (⟨kind, String.ofList (first :: more), n⟩ : Token).CanPrecede tail tail') :
    scan? first (more ++ tail') = some (kind, more, tail') := by
  have hquoted : ∀ quote ∈ kind.quote?, tail = [] →
      more.getLast? = some quote ∨ tail' = [] := by
    rintro quote hkind rfl
    rcases hbehind with hsame | ⟨hclosed, -, -⟩
    · exact .inr (List.head?_eq_none_iff.mp hsame)
    · exact .inl (getLast?_of_closed hclosed hkind)
  by_cases hpunctuation : isPunctuation first = true
  · unfold scan? at h ⊢
    rw [if_pos hpunctuation] at h ⊢
    simp only [Option.some.injEq, Prod.mk.injEq] at h
    obtain ⟨rfl, rfl, -⟩ := h
    rfl
  by_cases hcomparison : isComparison first = true
  · exact scan?_append_of_comparison hpunctuation hcomparison h hbehind
  unfold scan? at h ⊢
  rw [if_neg hpunctuation, if_neg hcomparison] at h ⊢
  by_cases hstring : first = '\''
  · rw [if_pos hstring] at h ⊢
    simp only [Option.some.injEq, Prod.mk.injEq] at h
    obtain ⟨rfl, h⟩ := h
    rw [spanQuoted_append_of_closed h (hstring ▸ hquoted '\'' rfl)]
  rw [if_neg hstring] at h ⊢
  by_cases hname : first = '"'
  · rw [if_pos hname] at h ⊢
    simp only [Option.some.injEq, Prod.mk.injEq] at h
    obtain ⟨rfl, h⟩ := h
    rw [spanQuoted_append_of_closed h (hname ▸ hquoted '"' rfl)]
  rw [if_neg hname] at h ⊢
  by_cases hword : startsWord first = true
  · rw [if_pos hword] at h ⊢
    simp only [Option.some.injEq, Prod.mk.injEq] at h
    obtain ⟨rfl, hmore, htail⟩ := h
    obtain ⟨htake, hdrop⟩ := takeWhile_append_of_stops hmore (hbehind.stops (by decide) htail)
    rw [htake, hdrop]
  rw [if_neg hword] at h ⊢
  by_cases hdigit : first.isDigit = true
  · rw [if_pos hdigit] at h ⊢
    simp only [Option.some.injEq, Prod.mk.injEq] at h
    obtain ⟨rfl, hmore, htail⟩ := h
    obtain ⟨htake, hdrop⟩ := takeWhile_append_of_stops hmore (hbehind.stops (by decide) htail)
    rw [htake, hdrop]
  · rw [if_neg hdigit] at h
    cases h

/-- The rest of a text can be cut off behind any of its characters. -/
theorem canPrecede_take (t : Token) (htail : tail ≠ []) {k : Nat} (hk : 0 < k)
    (text : List Char) : t.CanPrecede tail (tail.take k ++ text) := by
  obtain ⟨c, tail, rfl⟩ := List.exists_cons_of_ne_nil htail
  obtain ⟨k, rfl⟩ := Nat.exists_eq_succ_of_ne_zero (Nat.ne_of_gt hk)
  exact .inl rfl

/-- A text that starts with a token, up to a place behind the token. -/
theorem take_token {k : Nat} (h : n + 1 + more.length ≤ k) :
    (first :: (more ++ tail)).take (k - n)
      = first :: (more ++ tail.take (k - (n + 1 + more.length))) := by
  rw [show k - n = k - (n + 1) + 1 by omega, List.take_succ_cons, List.take_append,
    List.take_of_length_le (by omega), Nat.sub_sub]

end Scanning

/-! ## The tokens of a text -/

namespace TokenStream

theorem cut_nil (n : Nat) : cut n [] = .done n := by
  unfold cut
  rfl

theorem cut_of_dropWhile_eq_nil {cs : List Char} (h : cs.dropWhile Text.isBlank = []) (n : Nat) :
    cut n cs = .done (n + cs.length) := by
  rw [cut.eq_def]
  split
  next => rfl
  next hcons =>
    rw [h] at hcons
    cases hcons

/-- What is cut at `start` if it is none of the blanks. -/
def cutToken (start : Nat) (first : Char) (rest : List Char) : TokenStream :=
  match scan? first rest with
  | none => .fault first start
  | some (kind, more, tail) =>
    .token ⟨kind, String.ofList (first :: more), start⟩ (cut (start + 1 + more.length) tail)

theorem cut_of_dropWhile_eq_cons {cs rest : List Char} {first : Char}
    (h : cs.dropWhile Text.isBlank = first :: rest) (n : Nat) :
    cut n cs = cutToken (n + (cs.takeWhile Text.isBlank).length) first rest := by
  rw [cut.eq_def]
  split
  next hnil =>
    rw [h] at hnil
    cases hnil
  next first' rest' hcons =>
    rw [h] at hcons
    cases hcons
    unfold cutToken
    dsimp only
    split <;> rename_i hscan <;> rw [hscan]

theorem cut_of_blank {c : Char} (h : Text.isBlank c = true) (n : Nat) (cs : List Char) :
    cut n (c :: cs) = cut (n + 1) cs := by
  have hdrop : (c :: cs).dropWhile Text.isBlank = cs.dropWhile Text.isBlank := by
    rw [List.dropWhile_cons_of_pos h]
  cases hcs : cs.dropWhile Text.isBlank with
  | nil =>
      rw [cut_of_dropWhile_eq_nil (hdrop.trans hcs), cut_of_dropWhile_eq_nil hcs,
        List.length_cons, Nat.add_right_comm, Nat.add_assoc]
  | cons first rest =>
      rw [cut_of_dropWhile_eq_cons (hdrop.trans hcs), cut_of_dropWhile_eq_cons hcs,
        List.takeWhile_cons_of_pos h, List.length_cons, Nat.add_right_comm, Nat.add_assoc]

theorem cut_of_not_blank {first : Char} (h : Text.isBlank first = false) (n : Nat)
    (rest : List Char) : cut n (first :: rest) = cutToken n first rest := by
  have hdrop : (first :: rest).dropWhile Text.isBlank = first :: rest := by
    simp [h]
  rw [cut_of_dropWhile_eq_cons hdrop, List.takeWhile_cons_of_neg (by simp [h])]
  rfl

theorem cut_of_scan? {first : Char} {rest more tail : List Char} {kind : TokenKind}
    (hblank : Text.isBlank first = false) (hscan : scan? first rest = some (kind, more, tail))
    (n : Nat) : cut n (first :: rest)
      = token ⟨kind, String.ofList (first :: more), n⟩ (cut (n + 1 + more.length) tail) := by
  rw [cut_of_not_blank hblank, cutToken, hscan]

/-- Induction along the cut of a text: over a blank, and over a token to what is behind it. -/
theorem cut_induction {P : Nat → List Char → Prop} (nil : ∀ n, P n [])
    (blank : ∀ n c cs, Text.isBlank c = true → P (n + 1) cs → P n (c :: cs))
    (token : ∀ n first rest, Text.isBlank first = false →
      (∀ kind more tail, scan? first rest = some (kind, more, tail) →
        P (n + 1 + more.length) tail) → P n (first :: rest)) (n : Nat) (cs : List Char) :
    P n cs := by
  induction hlength : cs.length using Nat.strong_induction_on generalizing n cs with
  | _ length ih =>
      cases cs with
      | nil => exact nil n
      | cons c cs =>
          rw [List.length_cons] at hlength
          cases hblank : Text.isBlank c with
          | true => exact blank n c cs hblank (ih cs.length (by omega) _ cs rfl)
          | false =>
              refine token n c cs hblank fun kind more tail hscan => ?_
              have happend := congrArg List.length (scan?_append hscan)
              rw [List.length_append] at happend
              exact ih tail.length (by omega) _ tail rfl

/-! ## Texts that stand elsewhere -/

/-- The tokens moved back by `d`. -/
def shift (d : Nat) : TokenStream → TokenStream
  | token t rest => token { t with position := t.position + d } (rest.shift d)
  | done n => done (n + d)
  | fault ch n => fault ch (n + d)

theorem cut_add (d n : Nat) (cs : List Char) : cut (n + d) cs = (cut n cs).shift d := by
  induction n, cs using cut_induction with
  | nil n => rw [cut_nil, cut_nil, shift]
  | blank n c cs hblank ih =>
      rw [cut_of_blank hblank, cut_of_blank hblank, ← ih, Nat.add_right_comm]
  | token n first rest hblank ih =>
      rw [cut_of_not_blank hblank, cut_of_not_blank hblank, cutToken, cutToken]
      cases hscan : scan? first rest with
      | none => rfl
      | some scanned =>
          obtain ⟨kind, more, tail⟩ := scanned
          dsimp only [shift]
          rw [← ih kind more tail hscan]
          congr 2
          omega

theorem abreast_shift {s : TokenStream} {n : Nat} (h : s.ending = .done n) (d : Nat) :
    Abreast (.done n) (.done (n + d)) s (s.shift d) := by
  induction s with
  | done m =>
      cases h
      exact .last
  | fault ch m => cases h
  | token t rest ih =>
      refine .token ⟨rfl, rfl⟩ ?_ (ih h)
      cases rest with
      | token w rest =>
          have hsemi : w.IsSemicolon ↔ ({ w with position := w.position + d } : Token).IsSemicolon :=
            Token.SameText.isSemicolon_iff ⟨rfl, rfl⟩
          simp only [shift, Adjoins, Token.stop, ← hsemi, and_congr_left_iff]
          omega
      | done m => exact .rfl
      | fault ch m => exact .rfl

/-! ## Texts that go on differently -/

theorem le_position_cut (n : Nat) (cs : List Char) : n ≤ (cut n cs).position := by
  induction n, cs using cut_induction with
  | nil n => rw [cut_nil, position]
  | blank n c cs hblank ih =>
      rw [cut_of_blank hblank]
      omega
  | token n first rest hblank ih =>
      rw [cut_of_not_blank hblank, cutToken]
      cases scan? first rest with
      | none => exact Nat.le_refl n
      | some scanned => exact Nat.le_refl n

theorem not_adjoins_cut {t : Token} {n : Nat} (h : t.stop < n) (cs : List Char) :
    ¬(cut n cs).Adjoins t := by
  have hle := le_position_cut n cs
  intro hadjoins
  cases hcut : cut n cs with
  | token w rest =>
      rw [hcut] at hle hadjoins
      simp only [position, Adjoins] at hle hadjoins
      omega
  | done m => rw [hcut] at hadjoins; exact hadjoins
  | fault ch m => rw [hcut] at hadjoins; exact hadjoins

theorem stop_cut (n : Nat) (first : Char) (more : List Char) (kind : TokenKind) :
    (⟨kind, String.ofList (first :: more), n⟩ : Token).stop = n + 1 + more.length := by
  simp only [Token.stop, String.length_ofList, List.length_cons]
  omega

theorem eq_semicolon_of_toUpper {c : Char} (h : c.toUpper = ';') : c = ';' := by
  unfold Char.toUpper at h
  split at h
  next hlower =>
    have hval := congrArg (fun c : Char => c.val.toNat) h
    obtain ⟨ha, hz⟩ := hlower
    rw [UInt32.le_iff_toNat_le] at ha hz
    simp only [UInt32.toNat_add, UInt32.toNat_sub] at hval
    simp only [Char.reduceVal, UInt32.reduceToNat] at ha hz hval
    omega
  next => exact h

/-- A token that reads as a semicolon is one character. -/
theorem eq_semicolon_of_is {kind : TokenKind} {first : Char} {more : List Char} {n : Nat}
    (h : (⟨kind, String.ofList (first :: more), n⟩ : Token).is ";" = true) :
    first = ';' ∧ more = [] := by
  have hupper := eq_of_beq h
  simp only [String.toList_ofList, List.map_cons] at hupper
  obtain ⟨hfirst, hmore⟩ := List.cons.inj hupper
  exact ⟨eq_semicolon_of_toUpper hfirst, List.map_eq_nil_iff.mp hmore⟩

/-- Up to a semicolon the tokens are the same, whatever text follows it. -/
theorem abreast_cut_take {n : Nat} {cs : List Char} {semi : Token} {rest : TokenStream}
    (h : (cut n cs).LeadsTo (.token semi rest)) (hsemi : semi.is ";" = true)
    (text : List Char) :
    n ≤ semi.position ∧ ∃ rest', Abreast (.token semi rest) (.token semi rest') (cut n cs)
        (cut n (cs.take (semi.position + 1 - n) ++ text)) ∧
      ∀ t : Token, t.stop = n → ((cut n cs).Adjoins t ↔
        (cut n (cs.take (semi.position + 1 - n) ++ text)).Adjoins t) := by
  induction n, cs using cut_induction with
  | nil n =>
      rw [cut_nil] at h
      cases h
  | blank n c cs hblank ih =>
      rw [cut_of_blank hblank] at h
      obtain ⟨hle, rest', habreast, -⟩ := ih h
      have htake : (c :: cs).take (semi.position + 1 - n)
          = c :: cs.take (semi.position + 1 - (n + 1)) := by
        rw [show semi.position + 1 - n = semi.position + 1 - (n + 1) + 1 by omega,
          List.take_succ_cons]
      rw [htake, List.cons_append, cut_of_blank hblank, cut_of_blank hblank]
      refine ⟨by omega, rest', habreast, fun t ht => iff_of_false ?_ ?_⟩ <;>
        exact not_adjoins_cut (by omega) _
  | token n first behind hblank ih =>
      cases hscan : scan? first behind with
      | none =>
          rw [cut_of_not_blank hblank, cutToken, hscan] at h
          cases h
      | some scanned =>
          obtain ⟨kind, more, tail⟩ := scanned
          obtain rfl := scan?_append hscan
          rw [cut_of_scan? hblank hscan] at h ⊢
          cases h with
          | refl =>
              obtain ⟨rfl, rfl⟩ := eq_semicolon_of_is hsemi
              have hkind : TokenKind.symbol = kind := congrArg Prod.fst (Option.some.inj hscan)
              subst hkind
              have htake : (';' :: ([] ++ tail)).take (n + 1 - n) = [';'] := by
                rw [Nat.add_sub_cancel_left, List.take_succ_cons, List.take_zero]
              have hscan' : scan? ';' text = some (.symbol, [], text) := rfl
              rw [htake, List.singleton_append, cut_of_scan? hblank hscan']
              exact ⟨Nat.le_refl n, _, .last, fun t _ => .rfl⟩
          | token _ htail =>
              obtain ⟨hle, rest', habreast, hadjoins⟩ := ih kind more tail hscan htail
              have hsome : tail ≠ [] := by
                rintro rfl
                rw [cut_nil] at htail
                cases htail
              have hbehind := canPrecede_take ⟨kind, String.ofList (first :: more), n⟩ hsome
                (Nat.sub_pos_of_lt (Nat.lt_succ_of_le hle)) text
              rw [take_token (Nat.le_succ_of_le hle), List.cons_append, List.append_assoc,
                cut_of_scan? hblank (scan?_append_of_canPrecede hscan hbehind)]
              exact ⟨by omega, rest', .token (.refl _) (hadjoins _ (stop_cut n first more kind))
                habreast, fun t _ => .rfl⟩

/-- Behind a text that ends with a closed token, another one can follow after a blank. -/
theorem abreast_cut_append {n m : Nat} {cs : List Char} (h : (cut n cs).ending = .done m)
    (hclosed : ∀ t ∈ (cut n cs).toList, t.Closed) (text : List Char) :
    n ≤ m ∧ Abreast (.done m) (cut (m + 1) text) (cut n cs) (cut n (cs ++ ' ' :: text)) ∧
      ∀ t : Token, t.stop = n → ((cut n cs).Adjoins t ↔ (cut n (cs ++ ' ' :: text)).Adjoins t) := by
  induction n, cs using cut_induction with
  | nil n =>
      rw [cut_nil] at h ⊢
      cases h
      rw [List.nil_append, cut_of_blank (by decide)]
      exact ⟨Nat.le_refl _, .last, fun t ht => iff_of_false id (not_adjoins_cut (by omega) _)⟩
  | blank n c cs hblank ih =>
      rw [cut_of_blank hblank] at h hclosed
      obtain ⟨hle, habreast, -⟩ := ih h hclosed
      rw [List.cons_append, cut_of_blank hblank, cut_of_blank hblank]
      refine ⟨by omega, habreast, fun t ht => iff_of_false ?_ ?_⟩ <;>
        exact not_adjoins_cut (by omega) _
  | token n first behind hblank ih =>
      cases hscan : scan? first behind with
      | none =>
          rw [cut_of_not_blank hblank, cutToken, hscan] at h
          cases h
      | some scanned =>
          obtain ⟨kind, more, tail⟩ := scanned
          obtain rfl := scan?_append hscan
          rw [cut_of_scan? hblank hscan] at h hclosed ⊢
          obtain ⟨hle, habreast, hadjoins⟩ := ih kind more tail hscan h
            fun t ht => hclosed t (List.mem_cons_of_mem _ ht)
          have hbehind : (⟨kind, String.ofList (first :: more), n⟩ : Token).CanPrecede tail
              (tail ++ ' ' :: text) := by
            cases tail with
            | nil => exact .inr ⟨hclosed _ List.mem_cons_self, rfl, rfl⟩
            | cons c tail => exact .inl rfl
          rw [List.cons_append, List.append_assoc,
            cut_of_scan? hblank (scan?_append_of_canPrecede hscan hbehind)]
          exact ⟨by omega, .token (.refl _) (hadjoins _ (stop_cut n first more kind)) habreast,
            fun t _ => .rfl⟩

end TokenStream

end OnePassSql

import OnePassSql.Proofs.Parser.Columns

/-!
Question marks. One with a number directly behind it asks for the index that the number spells, one
without asks for the index at the cursor; both move the cursor behind what they asked for. The
indices asked for are the places for values in the tree.
-/

namespace OnePassSql

/-! ## Places in trees -/

namespace Expr

mutual

/-- The indices of the parameters of an expression, from left to right. -/
def parameters : Expr → List Nat
  | literal _ => []
  | parameter index => [index]
  | column _ => []
  | unary _ e => parameters e
  | binary _ l r => parameters l ++ parameters r
  | call _ arguments => parametersAll arguments
  | membership e _ _ => parameters e

/-- The indices of the parameters of each expression. -/
def parametersAll : List Expr → List Nat
  | [] => []
  | e :: rest => parameters e ++ parametersAll rest

end

end Expr

/-! ## What question marks ask for -/

/-- The indices that question marks ask for, one after the other, from a cursor on. A question mark
with a number asks for that index, one without asks for the index at the cursor; the cursor moves
behind what was asked for. -/
def askedFrom : Nat → List (Option Nat) → List Nat
  | _, [] => []
  | cursor, mark :: marks => mark.getD cursor :: askedFrom (mark.getD cursor + 1) marks

/-- The cursor behind the question marks. -/
def cursorBehind (cursor : Nat) (marks : List (Option Nat)) : Nat :=
  marks.foldl (fun cursor mark => mark.getD cursor + 1) cursor

theorem askedFrom_append (cursor : Nat) (first more : List (Option Nat)) :
    askedFrom cursor (first ++ more)
      = askedFrom cursor first ++ askedFrom (cursorBehind cursor first) more := by
  induction first generalizing cursor with
  | nil => rfl
  | cons mark first ih =>
      simp only [List.cons_append, askedFrom, ih, cursorBehind, List.foldl_cons]

theorem cursorBehind_append (cursor : Nat) (first more : List (Option Nat)) :
    cursorBehind cursor (first ++ more) = cursorBehind (cursorBehind cursor first) more :=
  List.foldl_append

/-- With the question marks the places that a tree has grow from the ones to the others, and the
cursor moves on. No index that they ask for is the last one of 64 bits. -/
structure AsksFor (before after : List Nat) (cursor : Nat) (marks : List (Option Nat))
    (cursor' : Nat) : Prop where
  places : after = before ++ askedFrom cursor marks
  moved : cursor' = cursorBehind cursor marks
  inRange : ∀ index ∈ askedFrom cursor marks, index + 1 < UInt64.size

section AsksFor

variable {before between after : List Nat} {cursor cursor' cursor'' : Nat}
  {first more marks : List (Option Nat)}

theorem asksFor_nothing (h : after = before) : AsksFor before after cursor [] cursor :=
  ⟨by rw [h, askedFrom, List.append_nil], rfl, nofun⟩

theorem asksFor_mark (mark : Option Nat) (h : mark.getD cursor + 1 < UInt64.size) :
    AsksFor [] [mark.getD cursor] cursor [mark] (mark.getD cursor + 1) :=
  ⟨rfl, rfl, by simpa [askedFrom] using h⟩

theorem AsksFor.trans (h : AsksFor before between cursor first cursor')
    (h' : AsksFor between after cursor' more cursor'') :
    AsksFor before after cursor (first ++ more) cursor'' := by
  refine ⟨?_, ?_, ?_⟩
  · rw [h'.places, h.places, h.moved, askedFrom_append, List.append_assoc]
  · rw [h'.moved, h.moved, cursorBehind_append]
  · intro index hindex
    rw [askedFrom_append, ← h.moved] at hindex
    exact (List.mem_append.mp hindex).elim (h.inRange index) (h'.inRange index)

theorem AsksFor.within (h : AsksFor before after cursor marks cursor') (outer : List Nat) :
    AsksFor (outer ++ before) (outer ++ after) cursor marks cursor' :=
  ⟨by rw [h.places, List.append_assoc], h.moved, h.inRange⟩

end AsksFor

namespace Parse

open Step TokenStream

/-! ## Reading a question mark -/

section Question

variable {question : Token} {p q : Parser} {e : Expr}

theorem parameterIndex?_eq_some {digits : String} {index : Nat} :
    parameterIndex? digits = some index
      ↔ Binary64.digitsValue digits.toList = index ∧ index < UInt64.size := by
  unfold parameterIndex?
  dsimp only
  split
  next hlt =>
    rw [Option.some.injEq]
    exact ⟨fun h => ⟨h, h ▸ hlt⟩, And.left⟩
  next hnot => exact ⟨nofun, fun h => absurd (h.1 ▸ h.2) hnot⟩

theorem parameterHere_apply (question : Token) (p : Parser) :
    parameterHere question p = if p.cursor + 1 < UInt64.size
      then .ok (.parameter p.cursor) { p with cursor := p.cursor + 1 }
      else .error (.parse .parameterOutOfRange question.position) p := by
  unfold parameterHere
  rw [bind_apply_ok (get_apply p)]
  by_cases h : p.cursor + 1 < UInt64.size
  · rw [if_pos h, if_pos h]
    rfl
  · rw [if_neg h, if_neg h]
    rfl

/-- Behind a question mark no number is read, or the one that stands directly behind it, or what is
there is no token. -/
theorem placeCursor_cases (question : Token) (s : TokenStream) :
    (∃ ch n, s = .fault ch n) ∨
      ((∀ number rest, s = .token number rest → ¬IsNumberBehind question number) ∧
        Takes (placeCursor question) s ⟨⟩ s) ∨
      ∃ number rest, s = .token number rest ∧ IsNumberBehind question number := by
  cases s with
  | done n => exact .inr (.inl ⟨nofun, fun _ _ => placeCursor_of_done rfl question⟩)
  | fault ch n => exact .inl ⟨ch, n, rfl⟩
  | token number rest =>
      by_cases hnumber : IsNumberBehind question number
      · exact .inr (.inr ⟨number, rest, rfl, hnumber⟩)
      · refine .inr (.inl ⟨?_, fun _ _ => placeCursor_of_not_number rfl hnumber⟩)
        intro _ _ h
        cases h
        exact hnumber

/-- A question mark asks for the parameter that is read behind it, whether forms are on or off. -/
theorem parameter_eq_ok (h : parameter question p = .ok e q) :
    ∃ mark s, e = .parameter (mark.getD p.cursor) ∧
      q = ⟨s, mark.getD p.cursor + 1, p.suffixes⟩ ∧ mark.getD p.cursor + 1 < UInt64.size ∧
      (∀ i, parameter question { p with suffixes := i } = .ok e { q with suffixes := i }) ∧
      (mark = none ∧ s = p.ahead ∧
          (∀ number rest, p.ahead = .token number rest → ¬IsNumberBehind question number) ∨
        ∃ number, mark = some (Binary64.digitsValue number.text.toList) ∧
          p.ahead = .token number s ∧ IsNumberBehind question number) := by
  obtain ⟨s, cursor, on⟩ := p
  simp only [parameter_eq_bind] at h ⊢
  obtain ⟨_, p₁, hplace, h⟩ := bind_eq_ok.mp h
  rw [parameterHere_apply] at h
  split at h
  next hlt =>
    cases h
    rcases placeCursor_cases question s with
      ⟨ch, n, rfl⟩ | ⟨hplain, htakes⟩ | ⟨number, rest, rfl, hnumber⟩
    · obtain ⟨_, _, hpeek, -⟩ := bind_eq_ok.mp hplace
      rw [peek_of_fault rfl] at hpeek
      cases hpeek
    · cases (htakes cursor on).symm.trans hplace
      refine ⟨none, s, rfl, rfl, hlt, fun i => ?_, .inl ⟨rfl, rfl, hplain⟩⟩
      rw [bind_apply_ok (htakes cursor i), parameterHere_apply]
      exact if_pos hlt
    · cases hindex : parameterIndex? number.text with
      | none =>
          rw [placeCursor_of_number rfl hnumber, hindex] at hplace
          cases hplace
      | some index =>
          have hread : ∀ i, placeCursor question ⟨.token number rest, cursor, i⟩
              = .ok ⟨⟩ ⟨rest, index, i⟩ := fun i => by
            rw [placeCursor_of_number rfl hnumber, hindex]
          cases (hread on).symm.trans hplace
          obtain ⟨rfl, -⟩ := parameterIndex?_eq_some.mp hindex
          refine ⟨some _, rest, rfl, rfl, hlt, fun i => ?_, .inr ⟨number, rfl, rfl, hnumber⟩⟩
          rw [bind_apply_ok (hread i), parameterHere_apply]
          exact if_pos hlt
  next => cases h

end Question

end Parse

end OnePassSql

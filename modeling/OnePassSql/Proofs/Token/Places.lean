import OnePassSql.Proofs.Faults.Tokens
import OnePassSql.Proofs.Token.Cutting

/-!
Where tokens stand: each one in the text at its position, and the end of the tokens at the end of the
text. So a place of the tokens is a place where the text can be split in two.
-/

namespace OnePassSql.TokenStream

/-- A token stands in the text at its position. -/
theorem exists_append_of_mem_cut {n : Nat} {cs : List Char} {t : Token}
    (h : t ∈ (cut n cs).toList) :
    ∃ before behind, cs = before ++ (t.text.toList ++ behind) ∧ t.position = n + before.length := by
  induction n, cs using cut_induction with
  | nil n =>
      rw [cut_nil] at h
      cases h
  | blank n c cs hblank ih =>
      rw [cut_of_blank hblank] at h
      obtain ⟨before, behind, rfl, hposition⟩ := ih h
      exact ⟨c :: before, behind, rfl, by rw [hposition, List.length_cons]; omega⟩
  | token n first rest hblank ih =>
      rw [cut_of_not_blank hblank, cutToken] at h
      cases hscan : scan? first rest with
      | none =>
          rw [hscan] at h
          cases h
      | some scanned =>
          obtain ⟨kind, more, tail⟩ := scanned
          rw [hscan] at h
          have happend : more ++ tail = rest := scan?_append hscan
          rcases List.mem_cons.mp h with rfl | hbehind
          · exact ⟨[], tail, by simp [happend], rfl⟩
          · obtain ⟨before, behind, htail, hposition⟩ := ih kind more tail hscan hbehind
            refine ⟨first :: more ++ before, behind, ?_, ?_⟩
            · simp [← happend, htail]
            · rw [hposition, List.cons_append, List.length_cons, List.length_append]
              omega

/-- The tokens end where the text does. -/
theorem eq_of_ending_cut {n m : Nat} {cs : List Char} (h : (cut n cs).ending = .done m) :
    m = n + cs.length := by
  induction n, cs using cut_induction with
  | nil n =>
      rw [cut_nil] at h
      cases h
      rfl
  | blank n c cs hblank ih =>
      rw [cut_of_blank hblank] at h
      rw [ih h, List.length_cons]
      omega
  | token n first rest hblank ih =>
      rw [cut_of_not_blank hblank, cutToken] at h
      cases hscan : scan? first rest with
      | none =>
          rw [hscan] at h
          cases h
      | some scanned =>
          obtain ⟨kind, more, tail⟩ := scanned
          rw [hscan] at h
          rw [ih kind more tail hscan h, ← scan?_append hscan, List.length_cons, List.length_append]
          omega

/-- A place of the tokens of a text: the text behind it starts with one of its tokens, or it is the
end of the text. -/
theorem IsPlace.of_ofText {sql : String} {n : Nat} (h : (ofText sql).IsPlace n) :
    n = sql.length ∨ ∃ t ∈ (ofText sql).toList, t.position = n ∧
      n ≤ sql.length ∧ ∃ behind, String.ofList (sql.toList.drop n) = t.text ++ behind := by
  rcases h with ⟨t, ht, hposition⟩ | hdone
  · obtain ⟨before, behind, hsplit, hlength⟩ := exists_append_of_mem_cut ht
    rw [Nat.zero_add] at hlength
    have hn : before.length = n := hlength.symm.trans hposition
    refine .inr ⟨t, ht, hposition, ?_, String.ofList behind, ?_⟩
    · rw [← String.length_toList, hsplit, ← hn, List.length_append]
      exact Nat.le_add_right _ _
    · rw [hsplit, ← hn, List.drop_left, String.ofList_append, String.ofList_toList]
  · refine .inl ?_
    rw [eq_of_ending_cut hdone, Nat.zero_add, String.length_toList]

end OnePassSql.TokenStream

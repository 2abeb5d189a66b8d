import OnePassSql.Proofs.Database.Taxonomy
import OnePassSql.Proofs.Token.Places

/-!
Where a query says that its text does not read: in front of a token, or at the end of the text. The
mark splits the text there and changes nothing else in it.
-/

namespace OnePassSql

theorem Fault.message_misread (problem : ParseProblem) (n : Nat) (sql : String) :
    (misread problem n sql).message = "Invalid SQL: " ++ problem.message ++ " at " ++ toString n
      ++ ": " ++ String.ofList (sql.toList.take n) ++ "<<here>>"
      ++ String.ofList (sql.toList.drop n) := by
  unfold message marked hereMark
  simp only [String.append_assoc]

namespace Database

variable {ρ : Type} [Record ρ] {db : Database} {records : Records ρ} {sql : String}
  {params : List Value}

/-- A fault of reading at a place is answered as invalid SQL with the text split at that many
characters. There the text ends, or one of its tokens starts. -/
theorem query_marks_place (hopen : db.dropped = false) {problem : ParseProblem} {n : Nat}
    (h : ((db.bindAll params).execute records sql).answer = .error (.parse problem n)) :
    ∃ x y : String, x ++ y = sql ∧ x.length = n ∧
      (db.query records sql params).answer = .error (.misread problem n sql) ∧
      (Fault.misread problem n sql).isInvalidSql = true ∧
      (Fault.misread problem n sql).message = "Invalid SQL: " ++ problem.message ++ " at "
        ++ toString n ++ ": " ++ x ++ "<<here>>" ++ y ∧
      (n = sql.length ∨ ∃ t ∈ (TokenStream.ofText sql).toList, t.position = n ∧
        ∃ behind, y = t.text ++ behind) := by
  have hplace : (TokenStream.ofText sql).IsPlace n := by
    cases statementFault_of_execute h with
    | reading hreading => cases hreading; assumption
    | semantic hsemantic => cases hsemantic
    | coercion hcoercion => cases hcoercion
  have hsplit : n ≤ sql.length ∧ (n = sql.length ∨
      ∃ t ∈ (TokenStream.ofText sql).toList, t.position = n ∧
        ∃ behind, String.ofList (sql.toList.drop n) = t.text ++ behind) := by
    rcases hplace.of_ofText with hend | ⟨t, ht, hposition, hle, hbehind⟩
    · exact ⟨Nat.le_of_eq hend, .inl hend⟩
    · exact ⟨hle, .inr ⟨t, ht, hposition, hbehind⟩⟩
  refine ⟨String.ofList (sql.toList.take n), String.ofList (sql.toList.drop n), ?_, ?_,
    answer_of_execute_error hopen h, rfl, Fault.message_misread problem n sql, hsplit.2⟩
  · rw [← String.ofList_append, List.take_append_drop, String.ofList_toList]
  · rw [String.length_ofList, List.length_take, String.length_toList, Nat.min_eq_left hsplit.1]

/-- Characters are counted, not bytes: the parenthesis stands behind twelve of them. -/
theorem query_marks_place_parenthesis : ∃ x y : String, x ++ y = "SELECT 'é😀' ) x" ∧
    x.length = 12 ∧
    (standard.query (⟨[]⟩ : Records CellRecord) "SELECT 'é😀' ) x" []).answer
      = .error (.misread (.expected [";", "end of statement"]) 12 "SELECT 'é😀' ) x") ∧
    ∃ t ∈ (TokenStream.ofText "SELECT 'é😀' ) x").toList, t.position = 12 ∧
      ∃ behind, y = t.text ++ behind := by
  have hraised : ((standard.bindAll []).execute (⟨[]⟩ : Records CellRecord)
      "SELECT 'é😀' ) x").answer
        = .error (.parse (.expected [";", "end of statement"]) 12) := by
    decide +kernel
  obtain ⟨x, y, hsql, hlength, hanswer, -, -, hend | htoken⟩ := query_marks_place rfl hraised
  · exact absurd hend (by decide +kernel)
  · exact ⟨x, y, hsql, hlength, hanswer, htoken⟩

end Database

end OnePassSql

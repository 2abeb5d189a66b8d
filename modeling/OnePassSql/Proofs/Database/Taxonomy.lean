import OnePassSql.Proofs.Database.Reply
import OnePassSql.Proofs.Faults.Statement

/-!
The faults that queries answer. Faults of reading and of meaning come back with the statement in them,
and an internal error means a feature that the text asks for.
-/

namespace OnePassSql

open Step

/-! ## Texts of internal errors -/

/-- What is said about the features that statements can ask for. -/
def Feature.texts : List String :=
  ["INTERSECT not implemented", "EXCEPT not implemented", "IN expression not implemented",
    "Type of function COALESCE not implemented"]
    ++ ("," :: Select.joinWords).map fun word => word ++ " join not implemented"

theorem TokenStream.AsksFor.message_mem {s : TokenStream} {b : Bindings} {feature : Feature}
    (h : s.AsksFor b feature) : feature.message ∈ Feature.texts := by
  cases h with
  | join _ hword _ => exact List.mem_append_right _ (List.mem_map.mpr ⟨_, hword, rfl⟩)
  | intersect => exact .head _
  | except => exact .tail _ (.head _)
  | membership | default => exact .tail _ (.tail _ (.head _))
  | callType => exact .tail _ (.tail _ (.tail _ (.head _)))

/-- No text of an internal error is about a function that is not known. -/
theorem Feature.not_mem_texts_unknownFunction (name : String) :
    "Unknown SQL function: " ++ name ∉ Feature.texts := by
  have hstart : ∀ text ∈ Feature.texts, text.toList.head? ≠ some 'U' := by decide +kernel
  intro hmem
  exact hstart _ hmem (by simp)

/-- Where another text comes first the whole is no internal error. -/
theorem Fault.append_ne_internal {start : String} (hlength : 3 ≤ start.toList.length)
    (hstart : start.toList.take 3 ≠ ['I', 'n', 't']) (rest text : String) :
    start ++ rest ≠ "Internal error: " ++ text := by
  intro heq
  have htake := congrArg (fun m : String => m.toList.take 3) heq
  simp only [String.toList_append, List.take_append_of_le_length hlength] at htake
  exact hstart htake

/-! ## What a query answers that fails -/

/-- What a query can answer that fails. -/
inductive Database.QueryFault (db : Database) (sql : String) (params : List Value) :
    Fault → Prop where
  | dropped : db.dropped = true → QueryFault db sql params .dropped
  | lexical {ch n} : (TokenStream.ofText sql).ending = .fault ch n →
      QueryFault db sql params (.lexical ch n)
  | misread {problem n} : (TokenStream.ofText sql).IsPlace n →
      QueryFault db sql params (.misread problem n sql)
  | refused {problem} : QueryFault db sql params (.refused problem sql)
  | coercion {text target} : QueryFault db sql params (.coercion text target)
  | argument : QueryFault db sql params (.argument .pragma)
  | unsupported {feature} :
      (TokenStream.ofText sql).AsksFor (db.bindAll params).bindings feature →
      QueryFault db sql params (.unsupported feature)

namespace Database

variable {ρ : Type} [Record ρ] {db : Database} {records : Records ρ} {sql : String}
  {params : List Value} {fault : Fault}

/-- What is wrong with the statement of a query is wrong with its text. -/
theorem statementFault_of_execute
    (h : ((db.bindAll params).execute records sql).answer = .error fault) :
    (TokenStream.ofText sql).StatementFault (db.bindAll params).bindings fault := by
  unfold execute at h
  cases hrun : Statement.complete ⟨.ofText sql, db.bindAll params, records⟩ with
  | ok t s =>
      rw [hrun] at h
      cases h
  | error raised s =>
      rw [hrun] at h
      cases h
      exact (Statement.staysIn_complete ⟨.ofText sql, db.bindAll params, records⟩
        ⟨.refl _, rfl⟩).error hrun

/-- The fault of a statement goes into the answer with the text of the statement. -/
theorem answer_of_execute_error (hopen : db.dropped = false)
    (h : ((db.bindAll params).execute records sql).answer = .error fault) :
    (db.query records sql params).answer = .error (fault.annotate sql) := by
  unfold query
  rw [if_neg (by simp [hopen])]
  dsimp only
  rw [h]
  rfl

/-- An open database answers with a fault only where the statement has one. -/
theorem exists_execute_of_answer_error (hopen : db.dropped = false)
    (h : (db.query records sql params).answer = .error fault) :
    ∃ raised, ((db.bindAll params).execute records sql).answer = .error raised ∧
      raised.annotate sql = fault := by
  cases hexecute : ((db.bindAll params).execute records sql).answer with
  | error raised =>
      rw [answer_of_execute_error hopen hexecute] at h
      exact ⟨raised, rfl, Except.error.inj h⟩
  | ok t =>
      unfold query at h
      rw [if_neg (by simp [hopen])] at h
      dsimp only at h
      rw [hexecute] at h
      cases h

theorem queryFault_of_answer (h : (db.query records sql params).answer = .error fault) :
    db.QueryFault sql params fault := by
  cases hdropped : db.dropped with
  | true =>
      rw [query_of_dropped hdropped] at h
      cases h
      exact .dropped hdropped
  | false =>
      obtain ⟨raised, hraised, rfl⟩ := exists_execute_of_answer_error hdropped h
      cases statementFault_of_execute hraised with
      | reading hreading =>
          cases hreading with
          | lexical hending => exact .lexical hending
          | parse hplace => exact .misread hplace
      | semantic hsemantic => cases hsemantic; exact .refused
      | coercion hcoercion => cases hcoercion; exact .coercion
      | argument => exact .argument
      | unsupported hasks => exact .unsupported hasks

/-- Only a feature that is asked for is told of as an internal error. -/
theorem QueryFault.message_eq (h : db.QueryFault sql params fault) {text : String}
    (hmessage : fault.message = "Internal error: " ++ text) : text ∈ Feature.texts := by
  unfold Fault.message at hmessage
  cases h with
  | unsupported hasks => exact (String.append_right_inj _).mp hmessage ▸ hasks.message_mem
  | dropped =>
      have hsplit : "Cannot perform query on a dropped database"
          = "Cannot" ++ " perform query on a dropped database" := rfl
      exact absurd (hsplit ▸ hmessage) (Fault.append_ne_internal (by decide) (by decide +kernel) _ _)
  | lexical | misread | refused | coercion | argument =>
      simp only [String.append_assoc] at hmessage
      exact absurd hmessage (Fault.append_ne_internal (by decide) (by decide +kernel) _ _)

/-! ## The taxonomy -/

/-- No query answers a fault of reading or of meaning as it was raised: it answers them as invalid
SQL. It answers an internal error only for a feature that its text asks for, and no such error is
about a first word, a kind of object or a function that is not known. -/
theorem query_reports_faults (h : (db.query records sql params).answer = .error fault) :
    (∀ problem n, fault ≠ .parse problem n) ∧ (∀ problem, fault ≠ .semantic problem) ∧
      (∀ raised, db.dropped = false →
        ((db.bindAll params).execute records sql).answer = .error raised →
        (∀ problem n, raised = .parse problem n →
          fault = .misread problem n sql ∧ fault.isInvalidSql = true) ∧
        ∀ problem, raised = .semantic problem →
          fault = .refused problem sql ∧ fault.isInvalidSql = true) ∧
      (fault.isInternal = true → ∃ feature, fault = .unsupported feature ∧
        (TokenStream.ofText sql).AsksFor (db.bindAll params).bindings feature) ∧
      ∀ text, fault.message = "Internal error: " ++ text → text ∈ Feature.texts ∧
        text ≠ "unhandled statement keyword" ∧ text ≠ "unhandled CREATE kind" ∧
        ∀ name, text ≠ "Unknown SQL function: " ++ name := by
  have hfault := queryFault_of_answer h
  refine ⟨fun problem n heq => ?_, fun problem heq => ?_, fun raised hopen hraised => ?_,
    fun hinternal => ?_, fun text hmessage => ?_⟩
  · subst heq
    cases hfault
  · subst heq
    cases hfault
  · have hannotated : raised.annotate sql = fault :=
      Except.error.inj ((answer_of_execute_error hopen hraised).symm.trans h)
    subst hannotated
    refine ⟨fun problem n heq => ?_, fun problem heq => ?_⟩
    · subst heq
      exact ⟨rfl, rfl⟩
    · subst heq
      exact ⟨rfl, rfl⟩
  · cases hfault with
    | unsupported hasks => exact ⟨_, rfl, hasks⟩
    | _ => cases hinternal
  · have hmem := hfault.message_eq hmessage
    have hknown : "unhandled statement keyword" ∉ Feature.texts ∧
        "unhandled CREATE kind" ∉ Feature.texts := by decide +kernel
    exact ⟨hmem, fun heq => hknown.1 (heq ▸ hmem), fun heq => hknown.2 (heq ▸ hmem),
      fun name heq => Feature.not_mem_texts_unknownFunction name (heq ▸ hmem)⟩

/-- The type of a sum hangs on that of a call, which no one has. -/
theorem query_reports_faults_callType : ∃ fault feature,
    (standard.query (⟨[]⟩ : Records CellRecord) "SELECT 1 + coalesce(NULL, ?)"
      [.integer 2]).answer = .error fault ∧
    fault.message = "Internal error: Type of function COALESCE not implemented" ∧
    fault = .unsupported feature ∧
    (TokenStream.ofText "SELECT 1 + coalesce(NULL, ?)").AsksFor
      (standard.bindAll [.integer 2]).bindings feature := by
  have hanswer : (standard.query (⟨[]⟩ : Records CellRecord) "SELECT 1 + coalesce(NULL, ?)"
      [.integer 2]).answer = .error (.unsupported (.functionType "COALESCE")) := by
    decide +kernel
  obtain ⟨-, -, -, hinternal, -⟩ := query_reports_faults hanswer
  obtain ⟨feature, hfeature, hasks⟩ := hinternal rfl
  exact ⟨_, feature, hanswer, rfl, hfeature, hasks⟩

end Database

end OnePassSql

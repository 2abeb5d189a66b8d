import OnePassSql.Proofs.Database.Taxonomy
import OnePassSql.Proofs.Shell.Respacing
import OnePassSql.Shell.Session

/-!
An interactive session and a script. The session collects trimmed lines up to one that ends with a
semicolon and hands over what it has, semicolon included; the script is cut at the semicolons. Where
each semicolon is the end of its line the two carry out the same statements.
-/

namespace OnePassSql

open Step TokenStream

/-! ## A statement and the same one with its semicolon -/

/-- What is answered is that the statement breaks off where a token of any kind is due. -/
def BreaksOff {α : Type} : Except Fault α → Prop
  | .ok _ => False
  | .error raised => raised.withoutPlace = .misread (.expected ["Identifier"]) 0 ""

instance {α : Type} : DecidablePred (BreaksOff (α := α)) := fun answer =>
  match answer with
  | .ok _ => inferInstanceAs (Decidable False)
  | .error _ => inferInstanceAs (Decidable (_ = _))

theorem breaksOff_map {α β : Type} (f : α → β) (answer : Except Fault α) :
    BreaksOff (answer.map f) ↔ BreaksOff answer := by
  cases answer <;> rfl

/-- The statement that the fault quotes. -/
def Fault.quoted? : Fault → Option String
  | misread _ _ sql => some sql
  | refused _ sql => some sql
  | _ => none

theorem TokenStream.EndsBefore.wholeTails {u v : TokenStream} (h : EndsBefore u v) :
    WholeTails u v := by
  cases h with
  | terminated n m hsemi => exact .terminated n m hsemi
  | broken ch n m => exact .broken ch n m

namespace Database

variable {ρ : Type} [Record ρ] {db : Database} {records : Records ρ} {params : List Value}
  {sql sql' : String}

/-- A statement is answered as it is with a semicolon behind it and other blanks in it, unless it
breaks off where a token is due that the semicolon would be taken for. -/
theorem query_of_endsBefore (db : Database) (records : Records ρ) (params : List Value)
    (h : CutsAlike EndsBefore sql.toList sql'.toList)
    (hwhole : ¬BreaksOff (db.query records sql params).answer) :
    (db.query records sql params).answer.mapError Fault.withoutPlace
        = (db.query records sql' params).answer.mapError Fault.withoutPlace ∧
      (db.query records sql params).database = (db.query records sql' params).database ∧
      (db.query records sql params).records = (db.query records sql' params).records := by
  obtain ⟨u, v, hends, habreast⟩ := h 0 0
  have hs : (⟨.ofText sql, db.bindAll params, records⟩ : Session ρ).Abreast u v
      ⟨.ofText sql', db.bindAll params, records⟩ := ⟨⟨habreast, rfl, rfl⟩, rfl, rfl⟩
  have hending : u.ending = u := by
    cases hends <;> rfl
  refine query_of_follows habreast.leadsTo hending (Statement.follows_complete hends.wholeTails hs)
    fun hopen fault s hrun => ?_
  cases hends with
  | broken ch n m => exact .broken rfl rfl
  | terminated n m hsemi =>
      refine .terminated rfl rfl hsemi fun hfault => ?_
      have hsame : fault.withoutPlace = (Fault.parse (.expected ["Identifier"]) 0).withoutPlace :=
        hfault
      rw [query_of_error hopen hrun] at hwhole
      exact hwhole (Fault.withoutPlace_annotate hsame sql "")

theorem QueryFault.quoted {fault : Fault} (h : db.QueryFault sql params fault) :
    ∀ quoted ∈ fault.quoted?, quoted = sql := by
  cases h <;> simp [Fault.quoted?]

end Database

namespace Shell

/-! ## What is compared -/

/-- The characters that are not blank. -/
def ink (cs : List Char) : List Char := cs.filter fun c => !Text.isBlank c

/-- What the session prints for a statement, and what the script does: the same result, or
complaints of the same fault. It may be found at other positions, and in the session the statement
that is quoted has its semicolon; up to that and to blanks it is the same. -/
inductive SameReply : Printed → Printed → Prop where
  | result (text : String) : SameReply (.out text) (.out text)
  | failure {fault fault' : Fault} : fault.withoutPlace = fault'.withoutPlace →
      Option.Rel (fun quoted quoted' => ink quoted.toList = ink quoted'.toList ++ [';'])
        fault.quoted? fault'.quoted? →
      SameReply (complaint fault.message) (complaint fault'.message)

theorem SameReply.exists_complaint {r : Printed} {message : String}
    (h : SameReply r (complaint message)) : ∃ message', r = complaint message' := by
  generalize hmessage : complaint message = r' at h
  cases h with
  | result text => cases hmessage
  | failure => exact ⟨_, rfl⟩

/-- The printed lines are replies with prompts in between. -/
inductive Prompted : List Printed → List Printed → Prop where
  | nil : Prompted [] []
  | prompt (s : Session) {printed replies : List Printed} : Prompted printed replies →
      Prompted (.out (prompt s) :: printed) replies
  | reply (r : Printed) {printed replies : List Printed} : Prompted printed replies →
      Prompted (r :: printed) (r :: replies)

/-- A text for which it does not matter whether it is typed or is a script. -/
structure IsTypable (input : String) : Prop where
  /-- No line is a command. -/
  plain : ∀ line ∈ linesOf input, (Text.trim line).toList.head? ≠ some '.'
  /-- Every quote is closed on the line that opens it. -/
  balanced : ∀ line ∈ linesOf input, Balanced line.toList
  /-- Behind a semicolon there is nothing else on the line. -/
  ended : ∀ line ∈ linesOf input, ∀ piece ∈ (pieces none [] line.toList).tail,
    Text.trimChars piece = []
  /-- Every semicolon has a statement before it. -/
  filled : ∀ piece ∈ (pieces none [] input.toList).dropLast, Text.trimChars piece ≠ []
  /-- Every statement has a semicolon behind it. -/
  whole : ∀ piece ∈ (pieces none [] input.toList).getLast?, Text.trimChars piece = []

/-- None of the statements, carried out one after another, breaks off where a token of any kind is
due. -/
def Unbroken (json : Bool) (db : Database) : List String → Prop
  | [] => True
  | sql :: rest =>
    ¬BreaksOff (perform json db sql).1 ∧ Unbroken json (perform json db sql).2 rest

/-- The statement of a piece. -/
def statementOf (piece : List Char) : String := String.ofList (Text.trimChars piece)

/-! ## One statement -/

theorem perform_of_ok {json : Bool} {db : Database} {sql : String} {t : Table}
    (h : (db.query noRecords sql []).answer = .ok t) :
    perform json db sql = (.ok (resultText json t), (db.query noRecords sql []).database) := by
  rw [perform, h]
  rfl

theorem perform_of_error {json : Bool} {db : Database} {sql : String} {fault : Fault}
    (h : (db.query noRecords sql []).answer = .error fault) :
    perform json db sql = (.error fault, (db.query noRecords sql []).database) := by
  rw [perform, h]
  rfl

/-- Faults that differ in their places only quote a statement both, or neither does. -/
theorem rel_quoted {db db' : Database} {sql sql' : String} {params : List Value}
    {fault fault' : Fault} {R : String → String → Prop} (h : db.QueryFault sql params fault)
    (h' : db'.QueryFault sql' params fault') (hsame : fault.withoutPlace = fault'.withoutPlace)
    (hR : R sql sql') : Option.Rel R fault.quoted? fault'.quoted? := by
  have hquoted := h.quoted
  have hquoted' := h'.quoted
  cases fault <;> cases fault' <;> simp only [Fault.withoutPlace, reduceCtorEq] at hsame <;>
    simp only [Fault.quoted?] at hquoted hquoted' ⊢
  all_goals first
    | exact .none
    | (rw [hquoted _ rfl, hquoted' _ rfl]
       exact .some hR)

/-- A session does with a statement what a script does. -/
theorem performPrinting_of_endsBefore {json : Bool} {db : Database} {sql sql' : String}
    (h : CutsAlike EndsBefore sql.toList sql'.toList)
    (hink : ink sql'.toList = ink sql.toList ++ [';'])
    (hwhole : ¬BreaksOff (perform json db sql).1) :
    SameReply (performPrinting json db sql').1 (performPrinting json db sql).1 ∧
      (performPrinting json db sql').2 = (performPrinting json db sql).2 := by
  obtain ⟨hanswer, hdatabase, -⟩ := Database.query_of_endsBefore db noRecords [] h
    ((breaksOff_map _ _).not.mp hwhole)
  cases hreply : (db.query noRecords sql []).answer with
  | ok t =>
      cases hreply' : (db.query noRecords sql' []).answer with
      | ok t' =>
          rw [hreply, hreply'] at hanswer
          cases hanswer
          rw [performPrinting, performPrinting, perform_of_ok hreply, perform_of_ok hreply']
          exact ⟨.result _, hdatabase.symm⟩
      | error fault' =>
          rw [hreply, hreply'] at hanswer
          cases hanswer
  | error fault =>
      cases hreply' : (db.query noRecords sql' []).answer with
      | ok t' =>
          rw [hreply, hreply'] at hanswer
          cases hanswer
      | error fault' =>
          rw [hreply, hreply'] at hanswer
          have hsame : fault'.withoutPlace = fault.withoutPlace := (Except.error.inj hanswer).symm
          rw [performPrinting, performPrinting, perform_of_error hreply, perform_of_error hreply']
          exact ⟨.failure hsame (rel_quoted (Database.queryFault_of_answer hreply')
            (Database.queryFault_of_answer hreply) hsame hink), hdatabase.symm⟩

theorem performPrinting_database (json : Bool) (db : Database) (sql : String) :
    (performPrinting json db sql).2 = (perform json db sql).2 := by
  unfold performPrinting
  rcases perform json db sql with ⟨answer, db'⟩
  cases answer <;> rfl

theorem runStatements_cons (json : Bool) (db : Database) (sql : String) (rest : List String) :
    runStatements json false db (sql :: rest)
      = ((performPrinting json db sql).1
          :: (runStatements json false (performPrinting json db sql).2 rest).1,
        (runStatements json false (performPrinting json db sql).2 rest).2) := by
  rw [runStatements]
  unfold performPrinting
  rcases perform json db sql with ⟨answer, db'⟩
  cases answer <;> rfl

/-! ## What the session holds of a piece -/

theorem WalksOver.append {part part' : List Char} (h : WalksOver part) (h' : WalksOver part') :
    WalksOver (part ++ part') := by
  intro current rest
  rw [List.append_assoc, h, h', List.reverse_append, List.append_assoc]

theorem walksOver_blanks {blanks : List Char} (h : ∀ c ∈ blanks, Text.isBlank c = true) :
    WalksOver blanks :=
  walksOver_of_plain fun c hc => ⟨ne_semicolon_of_blank (h c hc), not_isQuote_of_blank (h c hc)⟩

theorem ink_append (cs cs' : List Char) : ink (cs ++ cs') = ink cs ++ ink cs' :=
  List.filter_append cs cs'

theorem ink_of_blank {cs : List Char} (h : ∀ c ∈ cs, Text.isBlank c = true) : ink cs = [] :=
  List.filter_eq_nil_iff.mpr fun c hc => by simp [h c hc]

theorem ink_trimChars (cs : List Char) : ink (Text.trimChars cs) = ink cs := by
  obtain ⟨before, behind, hbefore, hbehind, hcs⟩ := Text.exists_trimChars cs
  conv_rhs => rw [hcs]
  rw [ink_append, ink_append, ink_of_blank hbefore, ink_of_blank hbehind, List.nil_append,
    List.append_nil]

theorem not_blank_of_head_ended {line : List Char} {c : Char}
    (h : c ∈ (line.dropWhile Text.isBlank ++ [';']).head?) : Text.isBlank c = false := by
  cases hline : line.dropWhile Text.isBlank with
  | nil =>
      rw [hline] at h
      obtain rfl := Option.some.inj h
      decide
  | cons d rest =>
      rw [hline] at h
      obtain rfl := Option.some.inj h
      exact not_of_dropWhile_eq_cons hline

/-- The lines of a script since its last semicolon, and what a session has pending that has read
them: the same without the blanks around the lines. -/
structure Held (raw typed : List Char) : Prop where
  reads {T : TokenStream → TokenStream → Prop} {cs cs' : List Char} :
    (∀ ch n m, T (.fault ch n) (.fault ch m)) → CutsAlike T cs cs' →
      CutsAlike T (raw ++ cs) (typed ++ cs')
  ink : ink raw = ink typed
  starts : ∀ c ∈ typed.head?, Text.isBlank c = false
  balanced : Balanced raw
  walks : WalksOver raw

namespace Held

variable {raw typed line : List Char}

theorem nil {blanks : List Char} (h : ∀ c ∈ blanks, Text.isBlank c = true) : Held blanks [] where
  reads _ hcuts := hcuts.blanks_left h
  ink := ink_of_blank h
  starts := by
    intro c hc
    cases hc
  balanced := balanced_of_blank h
  walks := walksOver_blanks h

/-- A piece is blank exactly if nothing is pending. -/
theorem typed_eq_nil (h : Held raw typed) (hraw : ∀ c ∈ raw, Text.isBlank c = true) :
    typed = [] := by
  have hink : Shell.ink typed = [] := h.ink ▸ ink_of_blank hraw
  cases typed with
  | nil => rfl
  | cons c typed =>
      have hblank := List.filter_eq_nil_iff.mp hink c List.mem_cons_self
      rw [h.starts c rfl] at hblank
      exact absurd rfl hblank

/-- A blank line leaves what is pending. -/
theorem blankLine (h : Held raw typed) (hline : ∀ c ∈ line, Text.isBlank c = true) :
    Held (raw ++ (line ++ ['\n'])) typed := by
  have hblanks : ∀ c ∈ line ++ ['\n'], Text.isBlank c = true :=
    List.forall_mem_append.mpr ⟨hline, List.forall_mem_singleton.mpr (by decide)⟩
  refine ⟨fun {T cs cs'} hT hcuts => ?_, ?_, h.starts, ?_,
    h.walks.append (walksOver_blanks hblanks)⟩
  · rw [List.append_assoc]
    exact h.reads hT (hcuts.blanks_left hblanks)
  · rw [ink_append, ink_of_blank hblanks, List.append_nil, h.ink]
  · exact h.balanced.append_iff.mpr (balanced_of_blank hblanks)

/-- Any other line that ends no statement goes to what is pending, with one blank behind it. -/
theorem openLine (h : Held raw typed) (hbalanced : Balanced line) (hwalks : WalksOver line)
    (hsome : Text.trimChars line ≠ []) :
    Held (raw ++ (line ++ ['\n'])) (typed ++ (Text.trimChars line ++ [' '])) := by
  have hbreak : ∀ c ∈ ['\n'], Text.isBlank c = true :=
    List.forall_mem_singleton.mpr (by decide)
  have hspace : ∀ c ∈ [' '], Text.isBlank c = true := List.forall_mem_singleton.mpr (by decide)
  constructor
  case reads =>
    intro T cs cs' hT hcuts
    obtain ⟨before, behind, hbefore, hbehind, hline⟩ := Text.exists_trimChars line
    have hblanks : ∀ c ∈ behind ++ ['\n'], Text.isBlank c = true :=
      List.forall_mem_append.mpr ⟨hbehind, hbreak⟩
    have hjoins : JoinsAlike T (behind ++ ['\n'] ++ cs) ([' '] ++ cs') :=
      hcuts.joinsAlike_blanks hblanks (by simp) (by decide)
    have happend := hjoins.append hT (breaks_blanks hblanks (by simp))
      (breaks_blanks hspace (by simp)) hbalanced.trimChars
    have hreads := h.reads hT (happend.cutsAlike.blanks_left hbefore)
    have hraw : raw ++ (line ++ ['\n']) ++ cs
        = raw ++ (before ++ (Text.trimChars line ++ (behind ++ ['\n'] ++ cs))) := by
      conv_lhs => rw [hline]
      simp
    rwa [hraw, List.append_assoc typed, List.append_assoc (Text.trimChars line)]
  case ink =>
    rw [ink_append, ink_append, ink_append, ink_append, ink_of_blank hbreak, ink_of_blank hspace,
      ink_trimChars, h.ink]
  case starts =>
    intro c hc
    cases typed with
    | cons d typed => exact h.starts c hc
    | nil =>
        rw [List.nil_append, List.head?_append_of_ne_nil _ hsome] at hc
        exact Text.not_blank_of_head_trimChars hc
  case balanced =>
    rw [h.balanced.append_iff, hbalanced.append_iff]
    exact balanced_of_blank hbreak
  case walks => exact h.walks.append (hwalks.append (walksOver_blanks hbreak))

/-- The end of a statement: the session hands over what it has with the semicolon, the script what
is before it. -/
theorem cutsAlike (h : Held raw typed) (hline : Balanced line) :
    CutsAlike EndsBefore (Text.trimChars (raw ++ line))
      (typed ++ (line.dropWhile Text.isBlank ++ [';'])) := by
  have hfront : ∀ c ∈ line.takeWhile Text.isBlank, Text.isBlank c = true :=
    fun c hc => List.mem_takeWhile_imp hc
  have hsplit : line.takeWhile Text.isBlank ++ line.dropWhile Text.isBlank = line :=
    List.takeWhile_append_dropWhile
  have hback : Balanced (line.dropWhile Text.isBlank) :=
    (balanced_of_blank hfront).append_iff.mp (hsplit.symm ▸ hline)
  have hjoins := joinsAlike_semicolon.append .broken breaks_nil breaks_semicolon hback
  rw [List.append_nil] at hjoins
  have hpiece := h.reads .broken (hjoins.cutsAlike.blanks_left hfront)
  rw [hsplit] at hpiece
  exact (cutsAlike_trimChars (h.balanced.append_iff.mpr hline)).trans hpiece

theorem ink_ended (h : Held raw typed) (line : List Char) :
    Shell.ink (typed ++ (line.dropWhile Text.isBlank ++ [';']))
      = Shell.ink (Text.trimChars (raw ++ line)) ++ [';'] := by
  have hfront : ∀ c ∈ line.takeWhile Text.isBlank, Text.isBlank c = true :=
    fun c hc => List.mem_takeWhile_imp hc
  have hline : Shell.ink line = Shell.ink (line.dropWhile Text.isBlank) := by
    conv_lhs => rw [← List.takeWhile_append_dropWhile (p := Text.isBlank) (l := line)]
    rw [ink_append, ink_of_blank hfront, List.nil_append]
  rw [ink_trimChars, ink_append, ink_append, ink_append, hline, h.ink, List.append_assoc]
  rfl

/-- What is handed over has a blank behind it and none before it. -/
theorem trim_ended (h : Held raw typed) (line : List Char) :
    Text.trimChars (typed ++ (line.dropWhile Text.isBlank ++ [';']) ++ [' '])
      = typed ++ (line.dropWhile Text.isBlank ++ [';']) := by
  have hhead : ∀ c ∈ (typed ++ (line.dropWhile Text.isBlank ++ [';'])).head?,
      Text.isBlank c = false := by
    intro c hc
    cases typed with
    | cons d typed => exact h.starts c hc
    | nil => exact not_blank_of_head_ended hc
  have hlast : ∀ c ∈ (typed ++ (line.dropWhile Text.isBlank ++ [';'])).getLast?,
      Text.isBlank c = false := by
    intro c hc
    rw [← List.append_assoc, List.getLast?_concat] at hc
    obtain rfl := Option.some.inj hc
    decide
  have hnone : ∀ c ∈ ([] : List Char), Text.isBlank c = true := by simp
  exact Text.trimChars_eq hnone (List.forall_mem_singleton.mpr (by decide)) hhead hlast

theorem performs {json : Bool} {db : Database} (h : Held raw typed) (hline : Balanced line)
    (hwhole : ¬BreaksOff (perform json db (statementOf (raw ++ line))).1) :
    SameReply
        (performPrinting json db
          (String.ofList (typed ++ (line.dropWhile Text.isBlank ++ [';'])))).1
        (performPrinting json db (statementOf (raw ++ line))).1 ∧
      (performPrinting json db
          (String.ofList (typed ++ (line.dropWhile Text.isBlank ++ [';'])))).2
        = (performPrinting json db (statementOf (raw ++ line))).2 := by
  refine performPrinting_of_endsBefore ?_ ?_ hwhole
  · rw [statementOf, String.toList_ofList, String.toList_ofList]
    exact h.cutsAlike hline
  · rw [statementOf, String.toList_ofList, String.toList_ofList]
    exact h.ink_ended line

end Held

/-! ## Turns -/

section Turns

variable {json : Bool} {db : Database} {typed line : List Char}

theorem turn_of_blank (h : ∀ c ∈ line, Text.isBlank c = true) :
    turn json ⟨db, String.ofList typed⟩ (String.ofList line)
      = ⟨[], ⟨db, String.ofList typed⟩, true⟩ := by
  have htrim : Text.trim (String.ofList line) = "" := by
    rw [Text.trim, String.toList_ofList, Text.trimChars_eq_nil_iff.mpr h]
  rw [turn, htrim]
  rfl

/-- A line that is neither blank nor a command goes to what is pending. -/
theorem turn_of_text (hplain : (Text.trimChars line).head? ≠ some '.')
    (hsome : Text.trimChars line ≠ []) :
    turn json ⟨db, String.ofList typed⟩ (String.ofList line)
      = if (Text.trimChars line).getLast? = some ';' then
          ⟨[(performPrinting json db
              (String.ofList (Text.trimChars (typed ++ Text.trimChars line ++ [' '])))).1],
            ⟨(performPrinting json db
              (String.ofList (Text.trimChars (typed ++ Text.trimChars line ++ [' '])))).2, ""⟩,
            true⟩
        else ⟨[], ⟨db, String.ofList (typed ++ (Text.trimChars line ++ [' ']))⟩, true⟩ := by
  have hsome' : (String.ofList (Text.trimChars line)).isEmpty = false := by
    simp [hsome]
  have hpending : String.ofList typed ++ String.ofList (Text.trimChars line) ++ " "
      = String.ofList (typed ++ (Text.trimChars line ++ [' '])) := by
    simp [String.ofList_append, String.append_assoc]
  rw [turn, Text.trim, String.toList_ofList, String.toList_ofList, if_neg hplain, hsome']
  dsimp only
  rw [if_neg Bool.false_ne_true, hpending, Text.trim, String.toList_ofList, List.append_assoc]

end Turns

/-! ## The first semicolon of a line -/

/-- A text whose quotes are closed is gone over without a cut, or up to its first semicolon outside
of quotes. -/
theorem exists_cut {line : List Char} (h : Balanced line) : (WalksOver line ∧
      ∀ before behind, line = before ++ ';' :: behind → ¬Balanced before) ∨
    ∃ before behind, line = before ++ ';' :: behind ∧ Balanced before ∧ WalksOver before := by
  -- from whatever quote is open
  have hcut (quote : Option Char) (line : List Char) :
      ((∀ current rest, pieces quote current (line ++ rest)
          = pieces (line.foldl quoteAfter quote) (line.reverse ++ current) rest) ∧
        ∀ before behind, line = before ++ ';' :: behind → before.foldl quoteAfter quote ≠ none) ∨
      ∃ before behind, line = before ++ ';' :: behind ∧ before.foldl quoteAfter quote = none ∧
        ∀ current rest, pieces quote current (before ++ rest)
          = pieces none (before.reverse ++ current) rest := by
    induction line generalizing quote with
    | nil => exact .inl ⟨fun _ _ => rfl, by simp⟩
    | cons c line ih =>
        by_cases hsemi : quote.isNone = true ∧ c = ';'
        · obtain ⟨hnone, rfl⟩ := hsemi
          obtain rfl := Option.isNone_iff_eq_none.mp hnone
          exact .inr ⟨[], line, rfl, rfl, fun _ _ => rfl⟩
        · have hstep (current rest : List Char) : pieces quote current (c :: rest)
              = pieces (quoteAfter quote c) (c :: current) rest := by
            rw [pieces, if_neg hsemi]
          rcases ih (quoteAfter quote c) with
            ⟨hwalks, hnone⟩ | ⟨before, behind, rfl, hbefore, hwalks⟩
          · refine .inl ⟨fun current rest => ?_, fun before behind hline hbefore => ?_⟩
            · rw [List.cons_append, hstep, hwalks, List.foldl_cons, List.reverse_cons,
                List.append_assoc, List.singleton_append]
            · cases before with
              | nil =>
                  obtain rfl : quote = none := hbefore
                  exact hsemi ⟨rfl, (List.cons.inj hline).1⟩
              | cons d before =>
                  obtain ⟨rfl, htail⟩ := List.cons.inj hline
                  exact hnone before behind htail hbefore
          · refine .inr ⟨c :: before, behind, rfl, hbefore, fun current rest => ?_⟩
            rw [List.cons_append, hstep, hwalks, List.reverse_cons, List.append_assoc,
              List.singleton_append]
  rcases hcut none line with ⟨hwalks, hnone⟩ | ⟨before, behind, hline, hbefore, hwalks⟩
  · exact .inl ⟨fun current rest => (hwalks current rest).trans (by rw [h]), hnone⟩
  · exact .inr ⟨before, behind, hline, hbefore, hwalks⟩

theorem WalksOver.pieces_semicolon {part : List Char} (h : WalksOver part) (rest : List Char) :
    pieces none [] (part ++ ';' :: rest) = part :: pieces none [] rest := by
  rw [h.pieces_append]
  simp [pieces]

theorem WalksOver.pieces_eq {part : List Char} (h : WalksOver part) :
    pieces none [] part = [part] := by
  have hpieces := h.pieces_append []
  rw [List.append_nil] at hpieces
  rw [hpieces]
  simp [pieces]

theorem pieces_ne_nil (cs : List Char) : pieces none [] cs ≠ [] := by
  obtain ⟨piece, behind, hpieces, -⟩ := exists_pieces none cs
  rw [hpieces]
  exact List.cons_ne_nil piece behind

/-- Behind its semicolon a line ends. -/
theorem trimChars_of_cut {before behind : List Char}
    (h : ∀ c ∈ behind, Text.isBlank c = true) :
    Text.trimChars (before ++ ';' :: behind) = before.dropWhile Text.isBlank ++ [';'] := by
  have hline : before ++ ';' :: behind = before.takeWhile Text.isBlank
      ++ (before.dropWhile Text.isBlank ++ [';'] ++ behind) := by
    rw [List.append_assoc, ← List.append_assoc, List.takeWhile_append_dropWhile,
      List.singleton_append]
  rw [hline]
  refine Text.trimChars_eq (fun c hc => List.mem_takeWhile_imp hc) h
    (fun c => not_blank_of_head_ended) fun c hc => ?_
  rw [List.getLast?_concat] at hc
  obtain rfl := Option.some.inj hc
  decide

/-- A line without a semicolon outside of quotes does not end with one. -/
theorem getLast?_of_not_cut {line : List Char} (h : Balanced line)
    (hnone : ∀ before behind, line = before ++ ';' :: behind → ¬Balanced before) :
    (Text.trimChars line).getLast? ≠ some ';' := by
  intro hlast
  obtain ⟨front, hfront⟩ := List.getLast?_eq_some_iff.mp hlast
  obtain ⟨before, behind, -, hbehind, hline⟩ := Text.exists_trimChars line
  rw [hfront, List.append_assoc, List.singleton_append, ← List.append_assoc] at hline
  refine hnone _ _ hline ((balanced_append_iff ?_).mp (hline ▸ h))
  exact List.forall_mem_cons.mpr ⟨by decide, fun c hc => not_isQuote_of_blank (hbehind c hc)⟩

/-! ## Whole sessions -/

/-- A line of a text that can be typed. -/
structure TypableLine (line : List Char) : Prop where
  plain : (Text.trimChars line).head? ≠ some '.'
  balanced : Balanced line
  ended : ∀ piece ∈ (pieces none [] line).tail, Text.trimChars piece = []

/-- The pieces of a script, but for what stands behind the last semicolon, and none of them
blank. -/
structure Cuts (text : List Char) (statements : List (List Char)) : Prop where
  cut : ∃ last, pieces none [] text = statements ++ [last] ∧ Text.trimChars last = []
  filled : ∀ statement ∈ statements, Text.trimChars statement ≠ []

/-- What the session of a text comes to, if the script of the text comes to `script`. -/
structure Matches (session : List Printed × Session) (script : List Printed × Database × Bool) :
    Prop where
  last : session.2 = ⟨script.2.1, ""⟩
  replies : ∃ replies, Prompted session.1 replies ∧ List.Forall₂ SameReply replies script.1

section Turn

variable {json : Bool} {s s' : Session} {line : String} {rest : List String}
  {script : List Printed × Database × Bool} {r r' : Printed}

theorem Matches.quiet (h : turn json s line = ⟨[], s', true⟩)
    (hrest : Matches (converse json s' rest) script) :
    Matches (converse json s (line :: rest)) script := by
  obtain ⟨hlast, replies, hprompted, hreplies⟩ := hrest
  rw [converse, h]
  exact ⟨hlast, replies, .prompt s hprompted, hreplies⟩

theorem Matches.answered (h : turn json s line = ⟨[r], s', true⟩) (hr : SameReply r r')
    (hrest : Matches (converse json s' rest) script) :
    Matches (converse json s (line :: rest)) (r' :: script.1, script.2) := by
  obtain ⟨hlast, replies, hprompted, hreplies⟩ := hrest
  rw [converse, h]
  exact ⟨hlast, r :: replies, .prompt s (.reply r hprompted), .cons hr hreplies⟩

end Turn

/-- A statement is cut off at the first semicolon. -/
theorem Cuts.exists_cons {before rest : List Char} {statements : List (List Char)}
    (h : Cuts (before ++ ';' :: rest) statements) (hwalks : WalksOver before) :
    ∃ behind, statements = before :: behind ∧ Cuts rest behind := by
  obtain ⟨⟨last, hpieces, hlast⟩, hfilled⟩ := h
  rw [hwalks.pieces_semicolon] at hpieces
  cases statements with
  | nil => exact absurd (List.cons.inj hpieces).2 (pieces_ne_nil rest)
  | cons statement behind =>
      obtain ⟨rfl, hbehind⟩ := List.cons.inj hpieces
      exact ⟨behind, rfl, ⟨last, hbehind, hlast⟩, (List.forall_mem_cons.mp hfilled).2⟩

/-- Behind its semicolon a line is blank: another semicolon would have no statement before it. -/
theorem Cuts.behind_blank {before behind rest raw : List Char} {statements : List (List Char)}
    (h : Cuts (raw ++ (before ++ ';' :: behind) ++ rest) statements) (hraw : WalksOver raw)
    (hwalks : WalksOver before) (hbefore : Balanced before)
    (hline : TypableLine (before ++ ';' :: behind)) : ∀ c ∈ behind, Text.isBlank c = true := by
  have hpieces : ∀ piece ∈ pieces none [] behind, Text.trimChars piece = [] := by
    have hended := hline.ended
    rwa [hwalks.pieces_semicolon] at hended
  have hbehind : Balanced behind := by
    have hbalanced := hbefore.append_iff.mp hline.balanced
    exact hbalanced
  rcases exists_cut hbehind with ⟨hover, -⟩ | ⟨blank, more, rfl, -, hover⟩
  · rw [hover.pieces_eq] at hpieces
    exact Text.trimChars_eq_nil_iff.mp (hpieces behind (List.mem_singleton.mpr rfl))
  · rw [List.append_assoc, List.append_assoc, List.cons_append, ← List.append_assoc] at h
    obtain ⟨behind, rfl, hrest⟩ := h.exists_cons (hraw.append hwalks)
    rw [List.append_assoc, List.cons_append] at hrest
    obtain ⟨behind, rfl, -⟩ := hrest.exists_cons hover
    rw [hover.pieces_semicolon] at hpieces
    exact absurd (hpieces blank List.mem_cons_self) (hrest.filled blank List.mem_cons_self)

theorem matches_converse (json : Bool) {lines : List (List Char)}
    (hlines : ∀ line ∈ lines, TypableLine line) {raw typed : List Char} {db : Database}
    {statements : List (List Char)} (hheld : Held raw typed)
    (hcuts : Cuts (raw ++ lines.flatMap (· ++ ['\n'])) statements)
    (hunbroken : Unbroken json db (statements.map statementOf)) :
    Matches (converse json ⟨db, String.ofList typed⟩ (lines.map String.ofList))
      (runStatements json false db (statements.map statementOf)) := by
  induction lines generalizing raw typed db statements with
  | nil =>
      obtain ⟨⟨last, hpieces, hlast⟩, hfilled⟩ := hcuts
      rw [List.flatMap_nil, List.append_nil, hheld.walks.pieces_eq] at hpieces
      cases statements with
      | cons statement behind => simp at hpieces
      | nil =>
          obtain rfl := List.singleton_inj.mp hpieces
          rw [hheld.typed_eq_nil (Text.trimChars_eq_nil_iff.mp hlast)]
          exact ⟨rfl, [], .prompt _ .nil, .nil⟩
  | cons line lines ih =>
      obtain ⟨hline, hmore⟩ := List.forall_mem_cons.mp hlines
      rw [List.flatMap_cons] at hcuts
      by_cases hblank : Text.trimChars line = []
      · have hblank := Text.trimChars_eq_nil_iff.mp hblank
        rw [← List.append_assoc] at hcuts
        exact (ih hmore (hheld.blankLine hblank) hcuts hunbroken).quiet (turn_of_blank hblank)
      have hturn : turn json ⟨db, String.ofList typed⟩ (String.ofList line) = _ :=
        turn_of_text hline.plain hblank
      rcases exists_cut hline.balanced with
        ⟨hwalks, hnone⟩ | ⟨before, behind, rfl, hbefore, hwalks⟩
      · rw [if_neg (getLast?_of_not_cut hline.balanced hnone)] at hturn
        rw [← List.append_assoc] at hcuts
        exact (ih hmore (hheld.openLine hline.balanced hwalks hblank) hcuts hunbroken).quiet hturn
      · rw [List.append_assoc (before ++ ';' :: behind), ← List.append_assoc raw] at hcuts
        have hbehind := hcuts.behind_blank hheld.walks hwalks hbefore hline
        have hblanks : ∀ c ∈ behind ++ ['\n'], Text.isBlank c = true :=
          List.forall_mem_append.mpr ⟨hbehind, List.forall_mem_singleton.mpr (by decide)⟩
        have htext : raw ++ (before ++ ';' :: behind) ++ (['\n'] ++ lines.flatMap (· ++ ['\n']))
            = raw ++ before ++ ';' :: (behind ++ ['\n'] ++ lines.flatMap (· ++ ['\n'])) := by
          simp
        rw [htext] at hcuts
        obtain ⟨statements, rfl, hrest⟩ := hcuts.exists_cons (hheld.walks.append hwalks)
        rw [trimChars_of_cut hbehind, if_pos List.getLast?_concat, hheld.trim_ended] at hturn
        obtain ⟨hwhole, hunbroken⟩ := hunbroken
        obtain ⟨hreply, hdatabase⟩ := hheld.performs hbefore hwhole
        rw [hdatabase] at hturn
        rw [← performPrinting_database] at hunbroken
        rw [List.map_cons, List.map_cons, runStatements_cons]
        exact (ih hmore (.nil hblanks) hrest hunbroken).answered hturn hreply

/-! ## The lines of a text -/

/-- A text is its lines with a line break behind each, perhaps without the last break. -/
theorem exists_lines (current cs : List Char) : ∃ (split : List (List Char)) (tail : List Char),
    lines current cs = split.map String.ofList ∧ (∀ c ∈ tail, c = '\n') ∧
      current.reverse ++ (cs ++ tail) = split.flatMap (· ++ ['\n']) := by
  induction cs generalizing current with
  | nil =>
      cases current with
      | nil => exact ⟨[], [], rfl, by simp, rfl⟩
      | cons c current =>
          exact ⟨[(c :: current).reverse], ['\n'], rfl, by simp, by simp⟩
  | cons c cs ih =>
      by_cases hc : c = '\n'
      · obtain ⟨split, tail, hlines, htail, htext⟩ := ih []
        refine ⟨current.reverse :: split, tail, ?_, htail, ?_⟩
        · rw [lines, if_pos hc, hlines, List.map_cons]
        · rw [List.flatMap_cons, ← htext, hc]
          simp
      · obtain ⟨split, tail, hlines, htail, htext⟩ := ih (c :: current)
        refine ⟨split, tail, ?_, htail, ?_⟩
        · rw [lines, if_neg hc, hlines]
        · rw [← htext]
          simp

/-- Line breaks behind a script go to its last piece. -/
theorem exists_pieces_append {tail : List Char} (htail : ∀ c ∈ tail, c = '\n')
    (quote : Option Char) (current cs : List Char) : ∃ statements last,
    pieces quote current cs = statements ++ [last] ∧
      pieces quote current (cs ++ tail) = statements ++ [last ++ tail] := by
  induction cs generalizing quote current with
  | nil =>
      refine ⟨[], current.reverse, rfl, ?_⟩
      rw [List.nil_append, List.nil_append]
      induction tail generalizing quote current with
      | nil => rw [pieces, List.append_nil]
      | cons c tail ih =>
          obtain ⟨rfl, hmore⟩ := List.forall_mem_cons.mp htail
          have hsemi : ¬(quote.isNone = true ∧ '\n' = ';') := fun h => absurd h.2 (by decide)
          rw [pieces, if_neg hsemi, ih hmore]
          simp
  | cons c cs ih =>
      by_cases hsemi : quote.isNone = true ∧ c = ';'
      · obtain ⟨statements, last, hpieces, happend⟩ := ih none []
        refine ⟨current.reverse :: statements, last, ?_, ?_⟩
        · rw [pieces, if_pos hsemi, hpieces, List.cons_append]
        · rw [List.cons_append, pieces, if_pos hsemi, happend, List.cons_append]
      · rw [List.cons_append, pieces, pieces, if_neg hsemi, if_neg hsemi]
        exact ih (quoteAfter quote c) (c :: current)

theorem splitStatements_of_cuts {script : String} {statements : List (List Char)}
    (h : Cuts script.toList statements) : splitStatements script = statements.map statementOf := by
  obtain ⟨⟨last, hpieces, hlast⟩, hfilled⟩ := h
  have hkept : (statements.map Text.trimChars).filter (fun cs => !cs.isEmpty)
      = statements.map Text.trimChars := by
    rw [List.filter_eq_self]
    intro cs hcs
    obtain ⟨statement, hstatement, rfl⟩ := List.mem_map.mp hcs
    simpa using hfilled statement hstatement
  rw [splitStatements_eq, hpieces, List.map_append, List.filter_append, List.map_singleton, hlast,
    hkept, List.filter_cons_of_neg (by simp), List.filter_nil, List.append_nil, List.map_map]
  rfl

/-- A text that can be typed does as a session what it does as a script: it leaves the same
database and answers the same, in the same order, if no statement breaks off where the session would
take its semicolon for the token that is due. -/
theorem interact_of_isTypable (json : Bool) (db : Database) {input : String}
    (h : IsTypable input) (hunbroken : Unbroken json db (splitStatements input)) :
    (interact json db input).2 = ⟨(runScript json false db input).2.1, ""⟩ ∧
      ∃ printed replies, (interact json db input).1 = .out banner :: printed ∧
        Prompted printed replies ∧
          List.Forall₂ SameReply replies (runScript json false db input).1 := by
  obtain ⟨split, tail, hlines, htail, htext⟩ := exists_lines [] input.toList
  obtain ⟨statements, last, hpieces, happend⟩ := exists_pieces_append htail none [] input.toList
  have hwhole : Text.trimChars last = [] := by
    refine h.whole last ?_
    rw [hpieces, List.getLast?_concat]
    rfl
  have hfilled : ∀ statement ∈ statements, Text.trimChars statement ≠ [] := by
    have hfilled := h.filled
    rwa [hpieces, List.dropLast_concat] at hfilled
  have hstatements : splitStatements input = statements.map statementOf :=
    splitStatements_of_cuts ⟨⟨last, hpieces, hwhole⟩, hfilled⟩
  have htypable : ∀ line ∈ split, TypableLine line := by
    intro line hline
    have hmem : String.ofList line ∈ linesOf input := by
      rw [linesOf, hlines]
      exact List.mem_map_of_mem hline
    have hplain := h.plain _ hmem
    have hbalanced := h.balanced _ hmem
    have hended := h.ended _ hmem
    rw [Text.trim, String.toList_ofList, String.toList_ofList] at hplain
    rw [String.toList_ofList] at hbalanced hended
    exact ⟨hplain, hbalanced, hended⟩
  have hcuts : Cuts ([] ++ split.flatMap (· ++ ['\n'])) statements := by
    rw [← htext]
    have htail : ∀ c ∈ tail, Text.isBlank c = true := by
      intro c hc
      rw [htail c hc]
      decide
    exact ⟨⟨last ++ tail, happend, Text.trimChars_eq_nil_iff.mpr (List.forall_mem_append.mpr
      ⟨Text.trimChars_eq_nil_iff.mp hwhole, htail⟩)⟩, hfilled⟩
  rw [hstatements] at hunbroken
  obtain ⟨hlast, replies, hprompted, hreplies⟩ :=
    matches_converse json htypable (.nil (by simp)) hcuts hunbroken
  rw [runScript, interact, linesOf, hlines, hstatements]
  exact ⟨hlast, _, replies, rfl, hprompted, hreplies⟩

instance decidableUnbroken (json : Bool) (db : Database) (statements : List String) :
    Decidable (Unbroken json db statements) :=
  match statements with
  | [] => inferInstanceAs (Decidable True)
  | sql :: rest =>
    have := decidableUnbroken json (perform json db sql).2 rest
    inferInstanceAs (Decidable (¬BreaksOff (perform json db sql).1 ∧
      Unbroken json (perform json db sql).2 rest))

/-- Statements over several lines, with a blank line, a semicolon in quotes, and one that fails. -/
theorem interact_of_isTypable_lines :
    let input :=
      "CREATE TABLE t (\na);\n\n INSERT INTO t (a)\n\tVALUES ('x;') ;\nDROP u;\nSELECT *\nFROM t;"
    IsTypable input ∧ Unbroken false .standard (splitStatements input) ∧
      ∃ printed replies, (interact false .standard input).1 = .out banner :: printed ∧
        Prompted printed replies ∧
          List.Forall₂ SameReply replies (runScript false false .standard input).1 := by
  intro input
  have htypable : IsTypable input :=
    ⟨by decide +kernel, by decide +kernel, by decide +kernel, by decide +kernel,
      by decide +kernel⟩
  have hunbroken : Unbroken false .standard (splitStatements input) := by decide +kernel
  have hmain := interact_of_isTypable false .standard htypable hunbroken
  exact ⟨htypable, hunbroken, hmain.2⟩

theorem Prompted.subset {printed replies : List Printed} (h : Prompted printed replies) :
    replies ⊆ printed := by
  induction h with
  | nil => exact List.Subset.refl []
  | prompt s _ ih => exact List.subset_cons_of_subset _ ih
  | reply r _ ih => exact List.cons_subset_cons r ih

/-- A trigger on one line: the session hands it over as a whole, and the script is cut at the
semicolon in its body. -/
theorem not_interact_of_whole :
    ¬∀ input : String, (∀ line ∈ linesOf input, line.toList.head? ≠ some '.') →
      (∀ line ∈ linesOf input, Balanced line.toList) →
      (∀ piece ∈ (pieces none [] input.toList).getLast?, Text.trimChars piece = []) →
      (interact false .standard input).2 = ⟨(runScript false false .standard input).2.1, ""⟩ ∧
        ∃ printed replies, (interact false .standard input).1 = .out banner :: printed ∧
          Prompted printed replies ∧
            List.Forall₂ SameReply replies (runScript false false .standard input).1 := by
  intro h
  let input := "CREATE TRIGGER a AFTER INSERT ON b BEGIN SELECT 1; END;\n"
  obtain ⟨-, printed, replies, hprinted, hprompted, hreplies⟩ :=
    h input (by decide +kernel) (by decide +kernel) (by decide +kernel)
  have hsession : (interact false .standard input).1
      = [.out banner, .out "pocketsql> ", .out "", .out "pocketsql> "] := by
    decide +kernel
  have hscript : (runScript false false .standard input).1 = [complaint
      ("Invalid SQL: Identifier expected at 49: CREATE TRIGGER a AFTER INSERT ON b BEGIN SELECT 1"
        ++ "<<here>>"), .out ""] := by
    decide +kernel
  rw [hscript] at hreplies
  rw [hsession] at hprinted
  obtain ⟨-, rfl⟩ := List.cons.inj hprinted
  cases hreplies with
  | cons hreply _ =>
      obtain ⟨message, rfl⟩ := hreply.exists_complaint
      have hmem := hprompted.subset List.mem_cons_self
      simp [complaint] at hmem

end Shell

end OnePassSql

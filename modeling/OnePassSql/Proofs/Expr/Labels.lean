import OnePassSql.Expr.Written

/-!
The labels of result columns. In the canonical text of an expression every parenthesis outside
quotes is closed, so the scan for the pair that encloses a text finds what the root of the tree has
written.
-/

namespace OnePassSql

namespace Expr

/-! ## Balanced texts -/

/-- Text that the scan for an enclosing pair passes over. -/
def Plain (cs : List Char) : Prop := ∀ c ∈ cs, c ∉ ['(', ')', '\'']

instance (cs : List Char) : Decidable (Plain cs) :=
  List.decidableBAll (· ∉ ['(', ')', '\'']) cs

/-- The text closes what it opens, parentheses and quotes. -/
inductive Balanced : List Char → Prop where
  | nil : Balanced []
  | plain {c : Char} {cs : List Char} : c ∉ ['(', ')', '\''] → Balanced cs → Balanced (c :: cs)
  | quoted {s cs : List Char} : '\'' ∉ s → Balanced cs → Balanced ('\'' :: (s ++ '\'' :: cs))
  | enclosed {inner cs : List Char} : Balanced inner → Balanced cs →
      Balanced ('(' :: (inner ++ ')' :: cs))

section Texts

variable {cs cs' s : List Char} {c : Char}

theorem Plain.append (h : Plain cs) (h' : Plain cs') : Plain (cs ++ cs') :=
  List.forall_mem_append.mpr ⟨h, h'⟩

theorem Plain.cons (hc : c ∉ ['(', ')', '\'']) (h : Plain cs) : Plain (c :: cs) :=
  List.forall_mem_cons.mpr ⟨hc, h⟩

theorem Plain.take (h : Plain cs) (n : Nat) : Plain (cs.take n) :=
  fun c hc => h c (List.mem_of_mem_take hc)

theorem Plain.drop (h : Plain cs) (n : Nat) : Plain (cs.drop n) :=
  fun c hc => h c (List.mem_of_mem_drop hc)

theorem Plain.balanced (h : Plain cs) : Balanced cs := by
  induction cs with
  | nil => exact .nil
  | cons c cs ih =>
      obtain ⟨hc, hcs⟩ := List.forall_mem_cons.mp h
      exact .plain hc (ih hcs)

theorem Plain.head?_ne (h : Plain cs) : cs.head? ≠ some '(' :=
  fun hhead => h '(' (List.mem_of_head? hhead) (by decide)

theorem Balanced.append (h : Balanced cs) (h' : Balanced cs') : Balanced (cs ++ cs') := by
  induction h with
  | nil => exact h'
  | plain hc _ ih => exact .plain hc ih
  | quoted hs _ ih =>
      rw [List.cons_append, List.append_assoc]
      exact .quoted hs ih
  | enclosed hinner _ _ ih =>
      rw [List.cons_append, List.append_assoc]
      exact .enclosed hinner ih

/-! ## The scan -/

/-- Within quotes the scan only looks for the quote that closes. -/
theorem closesAtEnd_quoted (hs : '\'' ∉ s) (depth : Nat) (rest : List Char) :
    closesAtEnd depth true (s ++ '\'' :: rest) = closesAtEnd depth false rest := by
  induction s with
  | nil => simp [closesAtEnd]
  | cons c s ih =>
      obtain ⟨hc, hs⟩ := not_or.mp (fun h => hs (List.mem_cons.mpr h))
      rw [List.cons_append, closesAtEnd, if_neg (Ne.symm hc), if_pos rfl]
      exact ih hs

/-- Behind a balanced text the scan is as deep as before it. -/
theorem Balanced.closesAtEnd_append (h : Balanced cs) (depth : Nat) (rest : List Char) :
    closesAtEnd (depth + 1) false (cs ++ rest) = closesAtEnd (depth + 1) false rest := by
  induction h generalizing depth rest with
  | nil => rfl
  | plain hc _ ih =>
      simp only [List.mem_cons, List.not_mem_nil, or_false, not_or] at hc
      rw [List.cons_append, closesAtEnd, if_neg hc.2.2, if_neg Bool.false_ne_true, if_neg hc.1,
        if_neg hc.2.1]
      exact ih depth rest
  | @quoted s cs hs _ ih =>
      rw [List.cons_append, List.append_assoc, List.cons_append, closesAtEnd, if_pos rfl]
      exact (closesAtEnd_quoted hs _ _).trans (ih depth rest)
  | @enclosed inner cs _ _ ihInner ih =>
      -- one deeper over the inside, and back where its pair closes
      have hdeep : ¬depth + 1 + 1 = 1 := by omega
      rw [List.cons_append, List.append_assoc, List.cons_append, closesAtEnd, if_neg (by decide),
        if_neg Bool.false_ne_true, if_pos rfl, ihInner, closesAtEnd, if_neg (by decide),
        if_neg Bool.false_ne_true, if_neg (by decide), if_pos rfl, if_neg hdeep]
      exact ih depth rest

/-- A pair around a balanced text is taken away if nothing stands behind it. -/
theorem withoutOuterPair_enclosed (h : Balanced cs) (rest : List Char) :
    withoutOuterPair ('(' :: (cs ++ ')' :: rest))
      = if rest = [] then cs else '(' :: (cs ++ ')' :: rest) := by
  have hscan : closesAtEnd 1 false (cs ++ ')' :: rest) = rest.isEmpty := by
    rw [h.closesAtEnd_append 0]
    simp [closesAtEnd]
  rw [withoutOuterPair, hscan]
  cases rest with
  | nil => simp
  | cons c rest => simp

theorem withoutOuterPair_of_head? (h : cs.head? ≠ some '(') : withoutOuterPair cs = cs := by
  unfold withoutOuterPair
  split
  · exact absurd rfl h
  · rfl

end Texts

/-! ## The texts of values -/

theorem plain_digitsOf (n : Nat) : Plain (Binary64.digitsOf n) := by
  intro c hc hmem
  have hdigit : c.isDigit = true := Nat.isDigit_of_mem_toDigits (by decide) (by decide) hc
  have hnone : (['(', ')', '\''].all fun c => !c.isDigit) = true := by decide
  have hnot := List.all_eq_true.mp hnone c hmem
  rw [hdigit] at hnot
  cases hnot

theorem plain_zeros (n : Nat) : Plain (Binary64.zeros n) := by
  intro c hc
  rw [List.eq_of_mem_replicate hc]
  decide

theorem plain_positional (d : Binary64.Decimal) : Plain d.positional := by
  have hdigits := plain_digitsOf d.digits
  unfold Binary64.Decimal.positional
  dsimp only
  split
  · refine (hdigits.append (plain_zeros _)).append ?_
    split <;> decide
  split
  · exact (hdigits.take _).append (.cons (by decide) (hdigits.drop _))
  · exact .cons (by decide) (.cons (by decide) ((plain_zeros _).append hdigits))

theorem plain_scientific (d : Binary64.Decimal) (plusSign : Bool) :
    Plain (d.scientific plusSign) := by
  have hdigits := plain_digitsOf d.digits
  have hfraction : Plain ('.' :: (Binary64.digitsOf d.digits).drop 1) :=
    .cons (by decide) (hdigits.drop 1)
  unfold Binary64.Decimal.scientific
  dsimp only
  refine ((hdigits.take 1).append ?_).append (.cons (by decide) (.append ?_ (plain_digitsOf _)))
  · split
    · decide
    · exact hfraction
  · split
    · decide
    · split <;> decide

theorem plain_write (l : Binary64.Layout) (x : Float) : Plain (l.write x).toList := by
  have hmagnitude : ∀ p, Plain (l.magnitude p) := by
    intro p
    unfold Binary64.Layout.magnitude
    dsimp only
    split
    · exact plain_positional _
    · exact plain_scientific _ _
  unfold Binary64.Layout.write
  split
  · decide
  · split <;> decide
  · rw [String.toList_ofList]
    refine Plain.append ?_ (hmagnitude _)
    split <;> decide

theorem plain_integer (n : Int) : Plain (toString n).toList := by
  cases n with
  | ofNat m =>
      have htext : toString (Int.ofNat m) = String.ofList (Nat.toDigits 10 m) :=
        Nat.toString_eq_ofList_toDigits
      rw [htext, String.toList_ofList]
      exact plain_digitsOf m
  | negSucc m =>
      have htext : toString (Int.negSucc m) = "-" ++ String.ofList (Nat.toDigits 10 (m + 1)) :=
        congrArg ("-" ++ ·) Nat.toString_eq_ofList_toDigits
      simp only [htext, String.toList_append, String.toList_ofList]
      exact Plain.append (by decide) (plain_digitsOf (m + 1))

theorem plain_hexByte (b : UInt8) : Plain (Value.hexByte b) := by
  have hdigit : ∀ n < 16, Value.hexDigit n ∉ ['(', ')', '\''] := by decide
  have hb := b.toNat_lt
  exact .cons (hdigit _ (by omega)) (.cons (hdigit _ (by omega)) (by decide))

/-- The text of a literal is balanced, and it does not start with a parenthesis. -/
theorem written_literal {v : Value} (h : ∀ s, v = .text s → '\'' ∉ s.toList) :
    Balanced (literal v).written.toList ∧ (literal v).written.toList.head? ≠ some '(' := by
  have hplain : ∀ cs, Plain cs → Balanced cs ∧ cs.head? ≠ some '(' :=
    fun _ hcs => ⟨hcs.balanced, hcs.head?_ne⟩
  cases v with
  | null => exact hplain "NULL".toList (by decide)
  | integer n => exact hplain _ (plain_integer n.toInt)
  | real x => exact hplain _ (plain_write Value.realLayout x)
  | text s =>
      have htext : (literal (.text s)).written.toList = '\'' :: (s.toList ++ '\'' :: []) := by
        simp [written]
      rw [htext]
      exact ⟨.quoted (h s rfl) .nil, by simp⟩
  | blob bytes =>
      have htext : (literal (.blob bytes)).written.toList
          = 'X' :: '\'' :: (bytes.flatMap Value.hexByte ++ '\'' :: []) := by
        simp [written, Value.written]
      have hquote : '\'' ∉ bytes.flatMap Value.hexByte := by
        intro hmem
        obtain ⟨b, -, hb⟩ := List.mem_flatMap.mp hmem
        exact plain_hexByte b '\'' hb (by decide)
      rw [htext]
      exact ⟨.plain (by decide) (.quoted hquote .nil), by simp⟩

/-! ## The texts of expressions -/

/-- Expressions without IN. The names and the texts in them hold none of the characters that the
scan would take for the expression's own. -/
inductive Tidy : Expr → Prop where
  | literal {v : Value} : (∀ s, v = .text s → '\'' ∉ s.toList) → Tidy (literal v)
  | parameter (index : Nat) : Tidy (parameter index)
  | column {name : String} : Plain name.toList → Tidy (column name)
  | unary {e : Expr} (op : UnaryOp) : Tidy e → Tidy (unary op e)
  | binary {l r : Expr} (op : BinaryOp) : Tidy l → Tidy r → Tidy (binary op l r)
  | call {function : String} {es : List Expr} : Plain function.toList → (∀ e ∈ es, Tidy e) →
      Tidy (call function es)

section Expressions

variable {e l r : Expr} {es : List Expr} {op : BinaryOp} {function : String}

theorem writtenAll_eq_intercalate (es : List Expr) :
    writtenAll es = ", ".intercalate (es.map written) := by
  induction es with
  | nil => rfl
  | cons e es ih =>
      cases es with
      | nil => simp [writtenAll]
      | cons e' es =>
          rw [List.map_cons, List.map_cons, String.intercalate_cons_cons, ← List.map_cons, ← ih,
            writtenAll]
          exact fun h => nomatch h

theorem written_parameter (index : Nat) :
    (parameter index).written.toList = '?' :: Binary64.digitsOf index := by
  simp [written, Binary64.digitsOf]

theorem written_binary (op : BinaryOp) (l r : Expr) : (binary op l r).written.toList
    = '(' :: ((l.written ++ " " ++ op.symbol ++ " " ++ r.written).toList ++ ')' :: []) := by
  simp [written]

theorem written_call (function : String) (es : List Expr) : (call function es).written.toList
    = function.toList ++ '(' :: ((writtenAll es).toList ++ ')' :: []) := by
  simp [written]

/-- An operator on one operand writes its sign before the operand, which stands in parentheses, or
behind it. -/
theorem written_unary (op : UnaryOp) (e : Expr) : ∃ before behind, Plain before ∧ Plain behind ∧
    (unary op e).written.toList = before ++ '(' :: (e.written.toList ++ ')' :: behind) ∧
    (before = [] → behind ≠ []) := by
  cases op with
  | not => exact ⟨"NOT ".toList, [], by decide, by decide, by simp [written], by decide⟩
  | negate => exact ⟨"-".toList, [], by decide, by decide, by simp [written], by decide⟩
  | notNull => exact ⟨[], " NOT NULL".toList, by decide, by decide, by simp [written], by decide⟩
  | isNull => exact ⟨[], " ISNULL".toList, by decide, by decide, by simp [written], by decide⟩

theorem plain_symbol (op : BinaryOp) : Plain op.symbol.toList := by
  cases op <;> decide

theorem balanced_writtenAll (h : ∀ e ∈ es, Balanced e.written.toList) :
    Balanced (writtenAll es).toList := by
  induction es with
  | nil => exact .nil
  | cons e es ih =>
      obtain ⟨he, hes⟩ := List.forall_mem_cons.mp h
      cases es with
      | nil => exact he
      | cons e' es =>
          have htext : (writtenAll (e :: e' :: es)).toList
              = e.written.toList ++ (", ".toList ++ (writtenAll (e' :: es)).toList) := by
            simp [writtenAll]
          have hcomma : Plain ", ".toList := by decide
          rw [htext]
          exact he.append (hcomma.balanced.append (ih hes))

theorem balanced_operands (hl : Balanced l.written.toList) (hr : Balanced r.written.toList)
    (op : BinaryOp) :
    Balanced (l.written ++ " " ++ op.symbol ++ " " ++ r.written).toList := by
  have hblank : Balanced " ".toList := .plain (by decide) .nil
  simp only [String.toList_append]
  exact (((hl.append hblank).append (plain_symbol op).balanced).append hblank).append hr

/-- The canonical text closes what it opens. -/
theorem Tidy.balanced (h : e.Tidy) : Balanced e.written.toList := by
  induction h with
  | literal hv => exact (written_literal hv).1
  | parameter index =>
      rw [written_parameter]
      exact .plain (by decide) (plain_digitsOf index).balanced
  | column hname => exact hname.balanced
  | @unary e op _ ih =>
      obtain ⟨before, behind, hbefore, hbehind, htext, -⟩ := written_unary op e
      rw [htext]
      exact hbefore.balanced.append (.enclosed ih hbehind.balanced)
  | binary op _ _ ihl ihr =>
      rw [written_binary]
      exact .enclosed (balanced_operands ihl ihr op) .nil
  | call hfunction _ ih =>
      rw [written_call]
      exact hfunction.balanced.append (.enclosed (balanced_writtenAll ih) .nil)

/-! ## Labels -/

theorem label_of_enclosed {text : String} (h : Balanced text.toList)
    (hwritten : e.written.toList = '(' :: (text.toList ++ ')' :: [])) : e.label = text := by
  rw [label, hwritten, withoutOuterPair_enclosed h, if_pos rfl, String.ofList_toList]

theorem label_of_unchanged (h : withoutOuterPair e.written.toList = e.written.toList) :
    e.label = e.written := by
  rw [label, h, String.ofList_toList]

theorem label_of_head? (h : e.written.toList.head? ≠ some '(') : e.label = e.written :=
  label_of_unchanged (withoutOuterPair_of_head? h)

theorem label_unary (h : e.Tidy) (op : UnaryOp) : (unary op e).label = (unary op e).written := by
  obtain ⟨before, behind, hbefore, -, htext, hbehind⟩ := written_unary op e
  cases before with
  | nil =>
      refine label_of_unchanged ?_
      rw [htext]
      exact (withoutOuterPair_enclosed h.balanced behind).trans (if_neg (hbehind rfl))
  | cons c before =>
      refine label_of_head? ?_
      rw [htext]
      exact hbefore.head?_ne

theorem label_call_of_ne (h : Plain function.toList) (hne : function ≠ "") (es : List Expr) :
    (call function es).label = (call function es).written := by
  refine label_of_head? ?_
  rw [written_call]
  cases hname : function.toList with
  | nil => exact absurd (String.toList_inj.mp hname) hne
  | cons c cs => exact (hname ▸ h).head?_ne

/-- The label is the canonical text without the pair around it, which is there for an operator
between two operands and for a call without a name. -/
theorem label_without_outer_pair (h : e.Tidy) :
    (∀ op l r, e = binary op l r →
      e.label = l.written ++ " " ++ op.symbol ++ " " ++ r.written) ∧
    (∀ es, e = call "" es → e.label = ", ".intercalate (es.map written)) ∧
    ((∀ op l r, e ≠ binary op l r) → (∀ es, e ≠ call "" es) → e.label = e.written) := by
  refine ⟨?_, ?_, fun hbinary hcall => ?_⟩
  · rintro op l r rfl
    cases h with
    | binary _ hl hr =>
        exact label_of_enclosed (balanced_operands hl.balanced hr.balanced op)
          (written_binary op l r)
  · rintro es rfl
    cases h with
    | call _ hes =>
        rw [← writtenAll_eq_intercalate]
        exact label_of_enclosed (balanced_writtenAll fun e he => (hes e he).balanced)
          (written_call "" es)
  · cases h with
    | literal hv => exact label_of_head? (written_literal hv).2
    | parameter index =>
        refine label_of_head? ?_
        simp [written_parameter]
    | column hname => exact label_of_head? hname.head?_ne
    | unary op he => exact label_unary he op
    | binary op _ _ => exact absurd rfl (hbinary op _ _)
    | @call function es hfunction _ =>
        refine label_call_of_ne hfunction (fun hname => ?_) es
        exact hcall es (congrArg (call · es) hname)

/-- A text literal with parentheses, inside an operator, before a suffix and as an argument. -/
theorem label_without_outer_pair_sum :
    let sum := binary .add (column "a") (literal (.text ") ("))
    let product := binary .mul sum (column "c")
    let tested := unary .notNull sum
    let list := call "" [sum, column "c"]
    (product.Tidy ∧ product.label = "(a + ') (') * c") ∧
      (tested.Tidy ∧ tested.label = "((a + ') (')) NOT NULL") ∧
      (list.Tidy ∧ list.label = "(a + ') ('), c") := by
  intro sum product tested list
  have hc : (column "c").Tidy := .column (by decide)
  have hsum : sum.Tidy :=
    .binary .add (.column (by decide)) (.literal fun s hs => by cases hs; decide)
  have hproduct : product.Tidy := .binary .mul hsum hc
  have htested : tested.Tidy := .unary .notNull hsum
  have hlist : list.Tidy := .call (by decide) (by simpa using ⟨hsum, hc⟩)
  refine ⟨⟨hproduct, ?_⟩, ⟨htested, ?_⟩, hlist, ?_⟩
  · exact ((label_without_outer_pair hproduct).1 _ _ _ rfl).trans rfl
  · have hcall : ∀ es, tested ≠ call "" es := fun _ h => nomatch h
    exact ((label_without_outer_pair htested).2.2 (fun _ _ _ h => nomatch h) hcall).trans rfl
  · exact ((label_without_outer_pair hlist).2.1 _ rfl).trans rfl

/-- A call without a name loses the parentheses around its arguments. -/
theorem not_label_written_of_not_binary : ¬∀ e : Expr, e.Tidy →
    (∀ op l r, e = binary op l r →
      e.label = l.written ++ " " ++ op.symbol ++ " " ++ r.written) ∧
    ((∀ op l r, e ≠ binary op l r) → e.label = e.written) := by
  intro hall
  have htidy : (call "" [column "a"]).Tidy :=
    .call (by decide) fun e he => List.mem_singleton.mp he ▸ .column (by decide)
  have hkept := (hall _ htidy).2 fun _ _ _ h => nomatch h
  exact absurd hkept (by decide)

end Expressions

end Expr

end OnePassSql

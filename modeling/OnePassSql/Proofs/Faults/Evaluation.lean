import OnePassSql.Expr.Evaluation
import OnePassSql.Proofs.Outcome

/-!
What evaluation can fault with. Operators and coercions fault on texts that spell no number, names
on what the statement says of them. Something is missing from the library only where an evaluation
comes to a membership test, or where a call is asked for its type.
-/

namespace OnePassSql

open Step Result

/-! ## Faults of values -/

/-- A text did not read as a value of a type. -/
inductive Fault.IsCoercion : Fault → Prop where
  | coercion {text target} : IsCoercion (.coercion text target)

/-- A statement that reads well was refused. -/
inductive Fault.IsSemantic : Fault → Prop where
  | semantic {problem} : IsSemantic (.semantic problem)

namespace Value

variable {v w : Value}

theorem raises_parseInteger (s : String) (target : ColumnType) :
    Raises Fault.IsCoercion (parseInteger s target) := by
  unfold parseInteger
  cases integerOfText? s with
  | some n => exact raises_ok n
  | none => exact raises_error .coercion

theorem raises_parseReal (s : String) : Raises Fault.IsCoercion (parseReal s) := by
  unfold parseReal
  cases realOfText? s with
  | some x => exact raises_ok x
  | none => exact raises_error .coercion

theorem raises_toReal (v : Value) : Raises Fault.IsCoercion v.toReal := by
  cases v with
  | text s => exact raises_parseReal s
  | _ => exact raises_ok _

theorem raises_coerce (v : Value) (type : ColumnType) :
    Raises Fault.IsCoercion (v.coerce type) := by
  cases v with
  | text s =>
      cases type with
      | integer => exact (raises_parseInteger s .integer).map integer
      | real => exact (raises_parseReal s).map real
      | _ => exact raises_ok _
  | _ => cases type <;> exact raises_ok _

/-- Where the kinds of two operands say nothing, both are read as reals and then combined. -/
theorem raises_toReal_bind {α : Type} (v w : Value) (f : Float → Float → Except Fault α)
    (hf : ∀ x y, Raises Fault.IsCoercion (f x y)) :
    Raises Fault.IsCoercion (do let x ← v.toReal; let y ← w.toReal; f x y) :=
  raises_bind (raises_toReal v) fun x _ => raises_bind (raises_toReal w) fun y _ => hf x y

theorem raises_compute (exact : Int → Int → Int) (rounded : Float → Float → Float) (v w : Value) :
    Raises Fault.IsCoercion (compute exact rounded v w) := by
  unfold compute
  split
  · exact raises_ok null
  · exact raises_ok null
  · split
    · exact raises_ok _
    · exact raises_ok _
  · exact raises_toReal_bind v w _ fun _ _ => raises_ok _

theorem raises_div (v w : Value) : Raises Fault.IsCoercion (v.div w) := by
  unfold div
  split
  · exact raises_ok null
  · exact raises_ok null
  · split
    · exact raises_ok null
    · split
      · exact raises_ok _
      · exact raises_ok _
  · refine raises_bind (raises_toReal w) fun y _ => ?_
    split
    · exact raises_ok null
    · exact raises_bind (raises_toReal v) fun x _ => raises_ok _

theorem raises_mod (v w : Value) : Raises Fault.IsCoercion (v.mod w) := by
  unfold mod
  split
  · exact raises_ok null
  · exact raises_ok null
  · split
    · exact raises_ok null
    · exact raises_ok _
  · refine raises_bind (raises_toReal w) fun y _ => ?_
    split
    · exact raises_ok null
    · exact raises_bind (raises_toReal v) fun x _ => raises_ok _

theorem raises_toShiftOperand (v : Value) : Raises Fault.IsCoercion v.toShiftOperand := by
  cases v with
  | integer n => exact raises_ok n
  | _ => exact (raises_toReal _).map truncate

theorem raises_shift (amount : Int → Int) (v w : Value) :
    Raises Fault.IsCoercion (shift amount v w) := by
  unfold shift
  split
  · exact raises_ok null
  · exact raises_bind (raises_toShiftOperand v) fun a _ =>
      raises_bind (raises_toShiftOperand w) fun n _ => raises_ok _

theorem raises_less (v w : Value) : Raises Fault.IsCoercion (v.less w) := by
  unfold less
  split
  case h_11 => exact raises_toReal_bind v w _ fun _ _ => raises_ok _
  all_goals exact raises_ok _

theorem raises_greater (v w : Value) : Raises Fault.IsCoercion (v.greater w) := by
  unfold greater
  split
  case h_11 => exact raises_toReal_bind v w _ fun _ _ => raises_ok _
  all_goals exact raises_ok _

theorem raises_negate (v : Value) : Raises Fault.IsCoercion v.negate := by
  cases v with
  | text s =>
      rw [negate]
      split
      · exact raises_ok _
      · exact (raises_parseReal s).map _
  | _ => exact raises_ok _

end Value

theorem UnaryOp.raises_apply (op : UnaryOp) (v : Value) :
    Raises Fault.IsCoercion (op.apply v) := by
  cases op with
  | negate => exact v.raises_negate
  | _ => exact raises_ok _

theorem BinaryOp.raises_apply (op : BinaryOp) (v w : Value) :
    Raises Fault.IsCoercion (op.apply v w) := by
  cases op with
  | concat | eq | ne | and | or => exact raises_ok _
  | lt | le => exact (v.raises_less w).map _
  | gt | ge => exact (v.raises_greater w).map _
  | add | sub | mul => exact Value.raises_compute _ _ v w
  | div => exact v.raises_div w
  | mod => exact v.raises_mod w
  | shiftLeft | shiftRight => exact Value.raises_shift _ v w

/-- The type of the operator hangs on those of its operands. -/
def BinaryOp.asksTypes : BinaryOp → Bool
  | add | sub | mul | div | mod => true
  | _ => false

/-! ## Expressions -/

/-- In the scope a name faults only with what the statement says of it. -/
structure Scope.Named (scope : Scope) : Prop where
  value : ∀ name, Raises Fault.IsSemantic (scope.value name)
  type : ∀ name, Raises Fault.IsSemantic (scope.type name)

namespace Expr

mutual

/-- Every call in the expression is of the one function that there is. -/
def CallsKnown : Expr → Prop
  | literal _ | parameter _ | column _ => True
  | unary _ e => CallsKnown e
  | binary _ l r => CallsKnown l ∧ CallsKnown r
  | call function arguments => function = "COALESCE" ∧ AllCallKnown arguments
  | membership e _ _ => CallsKnown e

/-- So it is in each of the expressions. -/
def AllCallKnown : List Expr → Prop
  | [] => True
  | e :: rest => CallsKnown e ∧ AllCallKnown rest

end

mutual

theorem callsKnown_bind (b : Bindings) : ∀ e : Expr, e.CallsKnown → (e.bind b).CallsKnown
  | literal _, _ | parameter _, _ | column _, _ => trivial
  | unary _ e, h => callsKnown_bind b e h
  | binary _ l r, h => ⟨callsKnown_bind b l h.1, callsKnown_bind b r h.2⟩
  | call _ arguments, h => ⟨h.1, allCallKnown_bindAll b arguments h.2⟩
  | membership e _ _, h => callsKnown_bind b e h

theorem allCallKnown_bindAll (b : Bindings) :
    ∀ es : List Expr, AllCallKnown es → AllCallKnown (bindAll b es)
  | [], _ => trivial
  | e :: rest, h => ⟨callsKnown_bind b e h.1, allCallKnown_bindAll b rest h.2⟩

end

/-- Evaluation comes to a membership test: whatever stands before it has a value, and in a call
only nulls do. -/
inductive MeetsMembership (scope : Scope) : Expr → Prop where
  | here {e list negated} : MeetsMembership scope (membership e list negated)
  | unary {op e} : MeetsMembership scope e → MeetsMembership scope (unary op e)
  | left {op l r} : MeetsMembership scope l → MeetsMembership scope (binary op l r)
  | right {op l r v} : l.eval scope = .ok v → MeetsMembership scope r →
      MeetsMembership scope (binary op l r)
  | argument {function before e behind} : (∀ a ∈ before, a.eval scope = .ok .null) →
      MeetsMembership scope e → MeetsMembership scope (call function (before ++ e :: behind))

/-- What an expression can fault with in a scope. -/
inductive EvalFault (scope : Scope) (e : Expr) : Fault → Prop where
  | semantic {fault} : fault.IsSemantic → EvalFault scope e fault
  | coercion {fault} : fault.IsCoercion → EvalFault scope e fault
  | membership : e.MeetsMembership scope → EvalFault scope e (.unsupported .membership)

theorem EvalFault.within {scope : Scope} {e e' : Expr} {fault : Fault}
    (h : EvalFault scope e fault) (he : e.MeetsMembership scope → e'.MeetsMembership scope) :
    EvalFault scope e' fault := by
  cases h with
  | semantic h => exact .semantic h
  | coercion h => exact .coercion h
  | membership h => exact .membership (he h)

variable {scope : Scope}

mutual

theorem raises_eval (hscope : scope.Named) :
    ∀ e : Expr, e.CallsKnown → Raises (EvalFault scope e) (e.eval scope)
  | literal v, _ => raises_ok v
  | parameter _, _ => raises_ok Value.null
  | column name, _ => (hscope.value name).mono fun _ => .semantic
  | unary op e, h =>
      raises_bind ((raises_eval hscope e h).mono fun _ he => he.within .unary)
        fun v _ => (op.raises_apply v).mono fun _ => .coercion
  | binary op l r, h =>
      raises_bind ((raises_eval hscope l h.1).mono fun _ he => he.within .left) fun v hv =>
        raises_bind ((raises_eval hscope r h.2).mono fun _ he => he.within (.right hv))
          fun w _ => (op.raises_apply v w).mono fun _ => .coercion
  | call function arguments, h => by
      have hknown : Text.sameWord function "COALESCE" = true := by simp [h.1, Text.sameWord]
      rw [eval, if_pos hknown]
      exact raises_firstValue hscope function arguments h.2 [] (by simp)
  | membership _ _ _, _ => raises_error (.membership .here)

/-- The arguments before those that are left are null. -/
theorem raises_firstValue (hscope : scope.Named) (function : String) :
    ∀ es : List Expr, AllCallKnown es → ∀ before : List Expr,
      (∀ a ∈ before, a.eval scope = .ok .null) →
      Raises (EvalFault scope (call function (before ++ es))) (firstValue scope es)
  | [], _, _, _ => raises_ok Value.null
  | e :: rest, h, before, hbefore => by
      refine raises_bind ((raises_eval hscope e h.1).mono fun _ he =>
        he.within (.argument hbefore)) fun v hv => ?_
      cases hnull : v.isNull with
      | false => exact raises_ok v
      | true =>
          rw [if_pos rfl]
          rw [Value.isNull_iff.mp hnull] at hv
          have hmore : ∀ a ∈ before ++ [e], a.eval scope = .ok .null := by
            simpa using fun a ha => ha.elim (hbefore a) (· ▸ hv)
          simpa using raises_firstValue hscope function rest h.2 (before ++ [e]) hmore

end

/-! ## Types of expressions -/

/-- The type of an expression is asked for and hangs on that of a call. The right operand of a sum is
only asked where the left one is an integer. -/
inductive AsksCallType (scope : Scope) : Expr → Prop where
  | call {function arguments} : AsksCallType scope (call function arguments)
  | negate {e} : AsksCallType scope e → AsksCallType scope (unary .negate e)
  | left {op l r} : op.asksTypes = true → AsksCallType scope l →
      AsksCallType scope (binary op l r)
  | right {op l r} : op.asksTypes = true → l.staticType scope = .ok .integer →
      AsksCallType scope r → AsksCallType scope (binary op l r)

/-- What the type of an expression can fault with in a scope. -/
inductive TypeFault (scope : Scope) (e : Expr) : Fault → Prop where
  | semantic {fault} : fault.IsSemantic → TypeFault scope e fault
  | callType : e.AsksCallType scope → TypeFault scope e (.unsupported (.functionType "COALESCE"))

theorem TypeFault.within {e e' : Expr} {fault : Fault} (h : TypeFault scope e fault)
    (he : e.AsksCallType scope → e'.AsksCallType scope) : TypeFault scope e' fault := by
  cases h with
  | semantic h => exact .semantic h
  | callType h => exact .callType (he h)

theorem raises_resultType {l r : Expr} (op : BinaryOp)
    (hl : Raises (TypeFault scope l) (l.staticType scope))
    (hr : Raises (TypeFault scope r) (r.staticType scope)) :
    Raises (TypeFault scope (binary op l r))
      (op.resultType (l.staticType scope) (r.staticType scope)) := by
  cases op with
  | add | sub | mul | div | mod =>
      refine raises_bind (hl.mono fun _ he => he.within (.left rfl)) fun type htype => ?_
      split
      · next hinteger =>
          exact raises_bind (hr.mono fun _ he => he.within (.right rfl (hinteger ▸ htype)))
            fun _ _ => raises_ok _
      · exact raises_ok _
  | _ => exact raises_ok _

theorem raises_staticType (hscope : scope.Named) :
    ∀ e : Expr, e.CallsKnown → Raises (TypeFault scope e) (e.staticType scope)
  | literal v, _ => raises_ok v.type
  | parameter _, _ => raises_ok ColumnType.none
  | column name, _ => (hscope.type name).mono fun _ => .semantic
  | unary op e, h => by
      cases op with
      | negate => exact (raises_staticType hscope e h).mono fun _ he => he.within .negate
      | _ => exact raises_ok _
  | binary op l r, h =>
      raises_resultType op (raises_staticType hscope l h.1) (raises_staticType hscope r h.2)
  | call _ _, h => raises_error (h.1 ▸ .callType .call)
  | membership _ _ _, _ => raises_ok ColumnType.integer

end Expr

end OnePassSql

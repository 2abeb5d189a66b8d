import Mathlib.Data.List.Lex
import Mathlib.Data.Prod.Lex
import OnePassSql.Expr.Evaluation
import OnePassSql.Proofs.Outcome

/-!
The comparisons of values. Smaller and greater are tables of their own, but each of them is the other
one with its operands exchanged, faults included, except for two nulls. Within a kind they describe
one strict total order: that of the numbers, of the sequences of code points, and of the blobs by
length and then byte by byte.
-/

namespace OnePassSql

/-! ## Doubles -/

namespace Binary64

open Float.Model (UnpackedFloat)

/-- How two doubles compare. With a NaN they do not. -/
def order (x y : Float) : Option Ordering := x.toModel.compare y.toModel

theorem lt_iff_order {x y : Float} : x < y ↔ order x y = some .lt :=
  decide_eq_true_iff.trans beq_iff_eq

theorem beq_iff_order {x y : Float} : (x == y) = true ↔ order x y = some .eq := by
  change (order x y == some .eq) = true ↔ _
  exact beq_iff_eq

/-- Exponents are compared before significands. -/
theorem compare_then_swap (e e' : Int) (m m' : Nat) :
    ((compare e e').then (compare m m')).swap = (compare e' e).then (compare m' m) := by
  rw [Ordering.swap_then, ← Std.OrientedOrd.eq_swap, ← Std.OrientedOrd.eq_swap]

/-- Signs first, then powers of two, then significands; for two negative numbers turned around. -/
theorem unpacked_compare_swap : ∀ x y : UnpackedFloat, x.compare y = (y.compare x).map .swap
  | .notANumber, y => by cases y <;> rfl
  | x, .notANumber => by cases x <;> rfl
  | .infinity s, .infinity s' => by cases s <;> cases s' <;> rfl
  | .infinity s, .zero _ | .infinity s, .finite .. => by cases s <;> rfl
  | .zero _, .infinity s | .finite .., .infinity s => by cases s <;> rfl
  | .zero _, .zero _ => rfl
  | .zero _, .finite s .. | .finite s .., .zero _ => by cases s <;> rfl
  | .finite .positive .., .finite .negative .. => rfl
  | .finite .negative .., .finite .positive .. => rfl
  | .finite .positive m e _, .finite .positive m' e' _ =>
      congrArg some (compare_then_swap e' e m' m).symm
  | .finite .negative m e _, .finite .negative m' e' _ =>
      congrArg (fun o : Ordering => some o.swap) (compare_then_swap e' e m' m).symm

theorem order_swap (x y : Float) : order x y = (order y x).map .swap :=
  unpacked_compare_swap x.toModel.unpack y.toModel.unpack

theorem gt_iff_order {x y : Float} : x > y ↔ order x y = some .gt := by
  rw [gt_iff_lt, lt_iff_order, order_swap x y]
  cases order y x with
  | none => simp
  | some o => cases o <;> simp

end Binary64

namespace Value

open Result

variable {v w : Value}

/-! ## Kinds -/

/-- The place of the value's kind among the kinds. -/
def rank : Value → Nat
  | null => 0
  | integer _ | real _ => 1
  | text _ => 2
  | blob _ => 3

theorem less_of_rank_lt (h : v.rank < w.rank) : v.less w = .ok true := by
  cases v <;> cases w <;> simp [rank] at h <;> rfl

theorem greater_of_rank_gt (h : w.rank < v.rank) : v.greater w = .ok true := by
  cases v <;> cases w <;> simp [rank] at h <;> rfl

theorem equal_of_rank_ne (h : v.rank ≠ w.rank) : v.equal w = false := by
  cases v <;> cases w <;> simp [rank] at h <;> rfl

/-! ## Comparisons as doubles -/

/-- The comparison of two values as doubles, the first one read first. -/
def compareReals (holds : Float → Float → Prop) [DecidableRel holds] (v w : Value) :
    Except Fault Bool := do
  let x ← v.toReal
  let y ← w.toReal
  return decide (holds x y)

/-- A value of a later kind is smaller than one of an earlier kind, null apart, if its double is. -/
theorem less_of_rank_gt (hw : w ≠ null) (h : w.rank < v.rank) :
    v.less w = compareReals (· < ·) v w := by
  cases v <;> cases w <;> simp [rank] at h hw <;> simp only [less, compareReals]

/-- A value of an earlier kind, null apart, is greater than one of a later kind if its double is. -/
theorem greater_of_rank_lt (hv : v ≠ null) (h : v.rank < w.rank) :
    v.greater w = compareReals (· > ·) v w := by
  cases v <;> cases w <;> simp [rank] at h hv <;> simp only [greater, compareReals, gt_iff_lt]

/-- A real is compared with a number as doubles are. -/
theorem comparisons_of_real (hv : v.rank = 1) (hw : w.rank = 1)
    (h : ¬∃ m n, v = integer m ∧ w = integer n) :
    ∃ x y, v.toReal = .ok x ∧ w.toReal = .ok y ∧ v.less w = .ok (decide (x < y)) ∧
      v.greater w = .ok (decide (x > y)) ∧ v.equal w = (x == y) := by
  cases v <;> cases w <;> simp [rank] at hv hw h <;> exact ⟨_, _, rfl, rfl, rfl, rfl, rfl⟩

/-- Two values of different kinds cannot both fail to read as doubles, as only texts do. -/
theorem toReal_ok_of_rank_ne (h : v.rank ≠ w.rank) :
    (∃ x, v.toReal = .ok x) ∨ ∃ y, w.toReal = .ok y := by
  cases v with
  | text s =>
      cases w with
      | text t => exact absurd rfl h
      | _ => exact .inr ⟨_, rfl⟩
  | _ => exact .inl ⟨_, rfl⟩

/-- Which value is read first shows only if neither of them reads as a double. -/
theorem compareReals_swap {holds : Float → Float → Prop} [DecidableRel holds]
    (h : (∃ x, v.toReal = .ok x) ∨ ∃ y, w.toReal = .ok y) :
    compareReals holds v w = compareReals (fun x y => holds y x) w v := by
  unfold compareReals
  rcases h with ⟨x, hx⟩ | ⟨y, hy⟩
  · rw [hx]
    cases w.toReal <;> rfl
  · rw [hy]
    cases v.toReal <;> rfl

/-! ## The two tables against each other -/

theorem less_eq_greater_of_rank_eq (hv : v ≠ null) (h : v.rank = w.rank) :
    v.less w = w.greater v := by
  by_cases hreal : v.rank = 1 ∧ ¬∃ m n, v = integer m ∧ w = integer n
  · obtain ⟨hv, hreal⟩ := hreal
    obtain ⟨x, y, hx, hy, hless, -, -⟩ := comparisons_of_real hv (h ▸ hv) hreal
    obtain ⟨y', x', hy', hx', -, hgreater, -⟩ :=
      comparisons_of_real (h ▸ hv) hv fun ⟨m, n, hm, hn⟩ => hreal ⟨n, m, hn, hm⟩
    cases hx.symm.trans hx'
    cases hy.symm.trans hy'
    rw [hless, hgreater]
  · -- two integers, texts or blobs: both tables ask the same of them
    cases v <;> cases w <;> simp [rank] at hv h hreal <;> rfl

/-- Each table is the other one with the operands exchanged, but for two nulls: null is smaller than
null and not greater. -/
theorem less_eq_greater (h : ¬(v = null ∧ w = null)) : v.less w = w.greater v := by
  rcases lt_trichotomy v.rank w.rank with hrank | hrank | hrank
  · rw [less_of_rank_lt hrank, greater_of_rank_gt hrank]
  · refine less_eq_greater_of_rank_eq (fun hv => h ⟨hv, ?_⟩) hrank
    subst hv
    cases w <;> simp [rank] at hrank ⊢
  · by_cases hw : w = null
    · subst hw
      cases v <;> simp at h <;> rfl
    · calc v.less w = compareReals (· < ·) v w := less_of_rank_gt hw hrank
        _ = compareReals (· > ·) w v := compareReals_swap (toReal_ok_of_rank_ne hrank.ne')
        _ = w.greater v := (greater_of_rank_lt hw hrank).symm

/-- The fault says of the value that its text spells no double. -/
def Unreadable (v : Value) (fault : Fault) : Prop := ∃ s, v = text s ∧ fault = .coercion s .real

theorem raises_unreadable_toReal (v : Value) : Raises v.Unreadable v.toReal := by
  cases v with
  | text s =>
      intro fault h
      change parseReal s = .error fault at h
      unfold parseReal at h
      split at h
      · cases h
      · cases h
        exact ⟨s, rfl, rfl⟩
  | _ => exact raises_ok _

theorem raises_unreadable_less (v w : Value) :
    Raises (fun fault => v.Unreadable fault ∨ w.Unreadable fault) (v.less w) := by
  unfold less
  split
  case h_11 =>
    exact raises_bind ((raises_unreadable_toReal _).mono fun _ => .inl) fun x _ =>
      raises_bind ((raises_unreadable_toReal _).mono fun _ => .inr) fun y _ => raises_ok _
  all_goals exact raises_ok _

/-- Smaller and greater mirror each other: the same truth value, or the same fault over the same
text. -/
theorem less_mirrors_greater (h : ¬(v = null ∧ w = null)) :
    (∃ b, v.less w = .ok b ∧ w.greater v = .ok b) ∨
      ∃ s, (v = text s ∨ w = text s) ∧
        v.less w = .error (.coercion s .real) ∧ w.greater v = .error (.coercion s .real) := by
  rw [← less_eq_greater h]
  cases hless : v.less w with
  | ok b => exact .inl ⟨b, rfl, rfl⟩
  | error fault =>
      rcases raises_unreadable_less v w fault hless with ⟨s, hs, rfl⟩ | ⟨s, hs, rfl⟩
      · exact .inr ⟨s, .inl hs, rfl, rfl⟩
      · exact .inr ⟨s, .inr hs, rfl, rfl⟩

/-- A text that spells a number, and one that spells none. -/
theorem less_mirrors_greater_text :
    ((text "2").less (integer 3) = .ok true ∧ (integer 3).greater (text "2") = .ok true) ∧
      (text "abc").less (integer 3) = .error (.coercion "abc" .real) ∧
      (integer 3).greater (text "abc") = .error (.coercion "abc" .real) := by
  have hless : (text "2").less (integer 3) = .ok true := rfl
  have hfault : (text "abc").less (integer 3) = .error (.coercion "abc" .real) := rfl
  constructor
  · rcases less_mirrors_greater (v := text "2") (w := integer 3) (by simp) with
      ⟨b, hb, hgreater⟩ | ⟨s, -, hs, -⟩
    · cases hless.symm.trans hb
      exact ⟨hless, hgreater⟩
    · cases hless.symm.trans hs
  · rcases less_mirrors_greater (v := text "abc") (w := integer 3) (by simp) with
      ⟨b, hb, -⟩ | ⟨s, -, hs, hgreater⟩
    · cases hfault.symm.trans hb
    · cases hfault.symm.trans hs
      exact ⟨hfault, hgreater⟩

end Value

/-! ## Strict total orders within a kind -/

/-- One of the three holds and the other two do not. -/
def ExactlyOne (p q r : Prop) : Prop := p ∧ ¬q ∧ ¬r ∨ ¬p ∧ q ∧ ¬r ∨ ¬p ∧ ¬q ∧ r

/-- Both tests have a truth value, and not the same one. -/
def Expr.Opposite (scope : Scope) (p q : Expr) : Prop :=
  ∃ b, p.eval scope = .ok (.ofBool b) ∧ q.eval scope = .ok (.ofBool (!b))

namespace Value

variable {α β : Type} [LinearOrder β] {kind : α → Value} {key : α → β}

/-- The comparisons describe one strict total order of the values that `kind` makes, which is that of
the keys. -/
structure StrictlyOrdered (kind : α → Value) (key : α → β) : Prop where
  exactlyOne (a b : α) : ExactlyOne ((kind a).less (kind b) = .ok true)
    ((kind a).equal (kind b) = true) ((kind a).greater (kind b) = .ok true)
  trans (a b c : α) : (kind a).less (kind b) = .ok true → (kind b).less (kind c) = .ok true →
    (kind a).less (kind c) = .ok true
  byKey (a b : α) : (kind a).less (kind b) = .ok true ↔ key a < key b
  operators (scope : Scope) (e f : Expr) (a b : α) : e.eval scope = .ok (kind a) →
    f.eval scope = .ok (kind b) →
      Expr.Opposite scope (.binary .le e f) (.binary .gt e f) ∧
        Expr.Opposite scope (.binary .ge e f) (.binary .lt e f) ∧
        Expr.Opposite scope (.binary .ne e f) (.binary .eq e f)

theorem decide_lt_or_eq (x y : β) : (decide (x < y) || decide (x = y)) = !decide (y < x) := by
  rw [← Bool.decide_or, ← decide_not, decide_eq_decide, not_lt, le_iff_lt_or_eq]

/-- It is enough that smaller is decided by the keys: greater mirrors it, and the operators are put
together from the comparisons. -/
theorem StrictlyOrdered.of_key (hkey : key.Injective) (hnull : ∀ a, kind a ≠ null)
    (hless : ∀ a b, (kind a).less (kind b) = .ok (decide (key a < key b)))
    (hequal : ∀ a b, (kind a).equal (kind b) = true ↔ a = b) : StrictlyOrdered kind key := by
  have hgreater (a b : α) : (kind a).greater (kind b) = .ok (decide (key b < key a)) := by
    rw [← less_eq_greater fun h => hnull b h.1, hless]
  have hequal (a b : α) : (kind a).equal (kind b) = decide (key a = key b) := by
    rw [Bool.eq_iff_iff, hequal, decide_eq_true_iff, hkey.eq_iff]
  have hequal' (a b : α) : (kind a).equal (kind b) = decide (key b = key a) := by
    rw [hequal, decide_eq_decide, eq_comm]
  refine ⟨fun a b => ?_, fun a b c => ?_, fun a b => ?_, fun scope e f a b he hf => ?_⟩
  · rw [hless, hgreater, hequal]
    simp only [Except.ok.injEq, decide_eq_true_iff]
    rcases lt_trichotomy (key a) (key b) with h | h | h
    · exact .inl ⟨h, h.ne, h.asymm⟩
    · exact .inr (.inl ⟨h.not_lt, h, h.not_gt⟩)
    · exact .inr (.inr ⟨h.asymm, h.ne', h⟩)
  · simp only [hless, Except.ok.injEq, decide_eq_true_iff]
    exact lt_trans
  · rw [hless, Except.ok.injEq, decide_eq_true_iff]
  · have heval (op : BinaryOp) := Expr.eval_binary he hf op
    refine ⟨⟨!decide (key b < key a), ?_, ?_⟩, ⟨!decide (key a < key b), ?_, ?_⟩,
      !decide (key a = key b), ?_, ?_⟩
    · rw [heval, BinaryOp.apply, hless, hequal, ← decide_lt_or_eq]
      rfl
    · rw [heval, BinaryOp.apply, hgreater, Bool.not_not]
      rfl
    · rw [heval, BinaryOp.apply, hgreater, hequal', ← decide_lt_or_eq]
      rfl
    · rw [heval, BinaryOp.apply, hless, Bool.not_not]
      rfl
    · rw [heval, BinaryOp.apply, hequal]
    · rw [heval, BinaryOp.apply, hequal, Bool.not_not]

theorem strictlyOrdered_integer : StrictlyOrdered integer Int64.toInt := by
  refine .of_key (fun _ _ => Int64.toInt_inj.mp) nofun (fun m n => ?_) fun m n => ?_
  · exact congrArg Except.ok (decide_eq_decide.mpr Int64.lt_iff_toInt_lt)
  · exact beq_iff_eq

/-- Lists are ordered as their images are under a function that keeps the order. -/
theorem map_lt_map_iff {α β : Type} [LT α] [LT β] {f : α → β} (hlt : ∀ a b, f a < f b ↔ a < b)
    (hf : f.Injective) (xs ys : List α) : xs.map f < ys.map f ↔ xs < ys := by
  induction xs generalizing ys with
  | nil => cases ys <;> simp
  | cons x xs ih =>
      cases ys with
      | nil => simp
      | cons y ys => simp only [List.map_cons, List.cons_lt_cons_iff, hlt, hf.eq_iff, ih]

/-- The code points of a text, in order. -/
def codePoints (s : String) : List Nat := s.toList.map Char.toNat

theorem codePoints_lt_iff (s t : String) : codePoints s < codePoints t ↔ s < t :=
  map_lt_map_iff (f := Char.toNat) (fun _ _ => Iff.rfl) (fun _ _ => Char.toNat_inj.mp) s.toList
    t.toList

theorem strictlyOrdered_text : StrictlyOrdered text codePoints := by
  refine .of_key (fun s t h => ?_) nofun (fun s t => ?_) fun s t => ?_
  · exact String.toList_inj.mp (List.map_injective_iff.mpr (fun _ _ => Char.toNat_inj.mp) h)
  · exact congrArg Except.ok (decide_eq_decide.mpr (codePoints_lt_iff s t).symm)
  · exact beq_iff_eq

/-- The length of a blob, and behind it its bytes in order. -/
def lengthThenBytes (bytes : List UInt8) : Nat ×ₗ List Nat :=
  toLex (bytes.length, bytes.map UInt8.toNat)

theorem lengthThenBytes_lt_iff (a b : List UInt8) :
    lengthThenBytes a < lengthThenBytes b ↔ blobLess a b = true := by
  have hbytes := map_lt_map_iff (fun _ _ => UInt8.lt_iff_toNat_lt.symm)
    (fun _ _ => UInt8.toNat_inj.mp) a b
  rw [lengthThenBytes, lengthThenBytes, Prod.Lex.toLex_lt_toLex, blobLess, Bool.or_eq_true,
    Bool.and_eq_true, decide_eq_true_iff, decide_eq_true_iff, beq_iff_eq, ← hbytes]

theorem strictlyOrdered_blob : StrictlyOrdered blob lengthThenBytes := by
  refine .of_key (fun a b h => ?_) nofun (fun a b => ?_) fun a b => ?_
  · have hbytes := congrArg (fun p => (ofLex p).2) h
    exact List.map_injective_iff.mpr (fun _ _ => UInt8.toNat_inj.mp) hbytes
  · refine congrArg Except.ok ?_
    rw [Bool.eq_iff_iff, decide_eq_true_iff, lengthThenBytes_lt_iff]
  · exact beq_iff_eq

/-- Integers, texts and blobs each come in a strict total order: the integers as numbers, the texts
as sequences of code points, the blobs by length and then byte by byte. -/
theorem strictlyOrdered_kinds :
    StrictlyOrdered integer Int64.toInt ∧ StrictlyOrdered text codePoints ∧
      StrictlyOrdered blob lengthThenBytes :=
  ⟨strictlyOrdered_integer, strictlyOrdered_text, strictlyOrdered_blob⟩

end Value

end OnePassSql

import Mathlib.Data.List.Forall2
import OnePassSql.Bindings

/-!
What is bound to a parameter. Binding a value changes what one parameter reads as and nothing else,
so a list of values gives each of its places to the parameter of that number.
-/

namespace OnePassSql.Bindings

/-- What a parameter reads as: the value of the first entry with its index, or null where no entry
has it. -/
inductive Gives (b : Bindings) (index : Nat) : Value → Prop where
  | bound {before after : List (Nat × Value)} {v : Value} :
      b.entries = before ++ (index, v) :: after → (∀ entry ∈ before, entry.1 ≠ index) →
      Gives b index v
  | unbound : (∀ entry ∈ b.entries, entry.1 ≠ index) → Gives b index .null

/-- The entries say what a parameter reads as, and nothing else does. -/
theorem gives_iff {b : Bindings} {index : Nat} {v : Value} :
    b.Gives index v ↔ v = b.valueAt index := by
  constructor
  · rintro (⟨hentries, hbefore⟩ | hnone)
    · have hlookup := List.lookup_eq_some_iff.mpr ⟨_, _, hentries, fun entry hentry =>
        bne_iff_ne.mpr (hbefore entry hentry).symm⟩
      rw [valueAt, hlookup, Option.getD_some]
    · have hlookup := List.lookup_eq_none_iff.mpr fun entry hentry =>
        bne_iff_ne.mpr (hnone entry hentry).symm
      rw [valueAt, hlookup, Option.getD_none]
  · rintro rfl
    cases hlookup : b.entries.lookup index with
    | none =>
        rw [valueAt, hlookup, Option.getD_none]
        have hnone := List.lookup_eq_none_iff.mp hlookup
        exact .unbound fun entry hentry => (bne_iff_ne.mp (hnone entry hentry)).symm
    | some v =>
        rw [valueAt, hlookup, Option.getD_some]
        obtain ⟨before, after, hentries, hbefore⟩ := List.lookup_eq_some_iff.mp hlookup
        exact .bound hentries fun entry hentry => (bne_iff_ne.mp (hbefore entry hentry)).symm

theorem forall₂_gives_iff (b : Bindings) {indices : List Nat} {values : List Value} :
    List.Forall₂ b.Gives indices values ↔ values = indices.map b.valueAt := by
  have hgives : b.Gives = fun index v => b.valueAt index = v :=
    funext₂ fun _ _ => propext (gives_iff.trans eq_comm)
  rw [hgives, eq_comm, ← List.forall₂_eq_eq_eq, List.forall₂_map_left_iff]

theorem valueAt_cons (entry : Nat × Value) (rest : List (Nat × Value)) (index : Nat) :
    valueAt ⟨entry :: rest⟩ index = if index = entry.1 then entry.2 else valueAt ⟨rest⟩ index := by
  obtain ⟨key, v⟩ := entry
  by_cases h : index = key
  · simp [valueAt, h]
  · simp [valueAt, List.lookup_cons, beq_false_of_ne h, h]

theorem valueAt_erase (b : Bindings) (index other : Nat) :
    (b.erase index).valueAt other = if other = index then .null else b.valueAt other := by
  obtain ⟨entries⟩ := b
  induction entries with
  | nil => exact (ite_self _).symm
  | cons entry rest ih =>
      rw [erase] at ih ⊢
      by_cases hentry : entry.1 = index
      · rw [List.filter_cons_of_neg (by simp [hentry]), ih, valueAt_cons, hentry]
        split <;> rfl
      · rw [List.filter_cons_of_pos (by simp [hentry]), valueAt_cons, valueAt_cons, ih]
        by_cases hother : other = entry.1
        · rw [if_pos hother, if_neg (hother ▸ hentry), if_pos hother]
        · rw [if_neg hother, if_neg hother]

theorem valueAt_bind (b : Bindings) (index other : Nat) (v : Value) :
    (b.bind index v).valueAt other = if other = index then v else b.valueAt other := by
  unfold bind
  split
  · next hnull => rw [valueAt_erase, Value.isNull_iff.mp hnull]
  · rw [valueAt_cons, valueAt_erase]
    split <;> rfl

/-- A list of values gives each place to one parameter, and the others read as before. -/
theorem valueAt_bindFrom (b : Bindings) (index other : Nat) (values : List Value) :
    (b.bindFrom index values).valueAt other
      = if index ≤ other ∧ other < index + values.length then values.getD (other - index) .null
        else b.valueAt other := by
  induction values generalizing b index with
  | nil =>
      rw [if_neg (by simp only [List.length_nil]; omega)]
      rfl
  | cons v rest ih =>
      rw [bindFrom, ih, valueAt_bind]
      by_cases hother : other = index
      · subst hother
        rw [if_neg (by omega), if_pos rfl, if_pos (by simp), Nat.sub_self]
        rfl
      · rw [if_neg hother, List.length_cons]
        by_cases hbehind : index + 1 ≤ other ∧ other < index + 1 + rest.length
        · have hplace : other - index = other - (index + 1) + 1 := by omega
          rw [if_pos hbehind, if_pos (by omega), hplace, List.getD_cons_succ]
        · rw [if_neg hbehind, if_neg (by omega)]

/-- The parameters are the places of the list; a place that is not there reads as null. -/
theorem valueAt_ofList (values : List Value) (index : Nat) :
    (ofList values).valueAt index = values.getD index .null := by
  rw [ofList, valueAt_bindFrom, Nat.zero_add]
  split
  · rw [Nat.sub_zero]
  · next hbeyond =>
      rw [List.getD_eq_getElem?_getD, List.getElem?_eq_none (by omega)]
      rfl

end OnePassSql.Bindings

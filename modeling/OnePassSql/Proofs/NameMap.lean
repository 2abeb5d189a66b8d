import OnePassSql.NameMap

/-!
Maps made from lists of pairs: each name has one entry, in the order of the names, with the value of
the last pair of the name.
-/

namespace OnePassSql.NameMap

variable {α : Type} {name other : String} {a : α} {entries pairs : List (String × α)}

/-! ## Names of entries -/

theorem mem_names_insertEntry : other ∈ (insertEntry name a entries).map Prod.fst ↔
    other = name ∨ other ∈ entries.map Prod.fst := by
  induction entries with
  | nil => simp [insertEntry]
  | cons entry rest ih =>
      rw [insertEntry]
      split
      · next hsame => simp [hsame]
      · split
        · simp
        · rw [List.map_cons, List.mem_cons, ih, List.map_cons, List.mem_cons]
          exact or_left_comm

theorem pairwise_insertEntry (h : (entries.map Prod.fst).Pairwise (· < ·)) :
    ((insertEntry name a entries).map Prod.fst).Pairwise (· < ·) := by
  induction entries with
  | nil => simp [insertEntry]
  | cons entry rest ih =>
      have hrest := List.pairwise_cons.mp h
      rw [insertEntry]
      split
      · next hsame =>
          rw [List.map_cons] at h ⊢
          exact hsame ▸ h
      · next hne =>
          split
          · next hlt =>
              refine List.pairwise_cons.mpr ⟨fun key hkey => ?_, h⟩
              rcases List.mem_cons.mp hkey with rfl | hkey
              · exact hlt
              · exact String.lt_trans hlt (hrest.1 key hkey)
          · next hle =>
              refine List.pairwise_cons.mpr ⟨fun key hkey => ?_, ih hrest.2⟩
              rcases mem_names_insertEntry.mp hkey with rfl | hkey
              · grind
              · exact hrest.1 key hkey

/-! ## Lists of pairs -/

theorem mem_names_foldl (m : NameMap α) :
    name ∈ (pairs.foldl (fun m pair => m.insert pair.1 pair.2) m).names ↔
      name ∈ m.names ∨ name ∈ pairs.map Prod.fst := by
  induction pairs generalizing m with
  | nil => simp
  | cons pair rest ih =>
      rw [List.foldl_cons, ih, names, insert, mem_names_insertEntry, List.map_cons, List.mem_cons]
      rw [or_comm (a := name = pair.1), or_assoc]
      rfl

/-- The names of the map are those of the pairs. -/
theorem mem_names_ofList : name ∈ (ofList pairs).names ↔ name ∈ pairs.map Prod.fst := by
  rw [ofList, mem_names_foldl]
  simp [empty, names]

theorem pairwise_names_ofList : (ofList pairs).names.Pairwise (· < ·) := by
  have hall : ∀ m : NameMap α, m.names.Pairwise (· < ·) →
      (pairs.foldl (fun m pair => m.insert pair.1 pair.2) m).names.Pairwise (· < ·) := by
    induction pairs with
    | nil => exact fun m hm => hm
    | cons pair rest ih => exact fun m hm => ih _ (pairwise_insertEntry hm)
  exact hall empty .nil

theorem get?_foldl_of_forall_ne (h : ∀ pair ∈ pairs, pair.1 ≠ name) (m : NameMap α) :
    (pairs.foldl (fun m pair => m.insert pair.1 pair.2) m).get? name = m.get? name := by
  induction pairs generalizing m with
  | nil => rfl
  | cons pair rest ih =>
      rw [List.forall_mem_cons] at h
      rw [List.foldl_cons, ih h.2, get?_insert, if_neg (Ne.symm h.1)]

/-- Of the pairs of one name the last counts. -/
theorem get?_ofList_of_last {i : Nat} (hi : pairs[i]? = some (name, a))
    (hlast : ∀ j pair, i < j → pairs[j]? = some pair → pair.1 ≠ name) :
    (ofList pairs).get? name = some a := by
  obtain ⟨hlt, hpair⟩ := List.getElem?_eq_some_iff.mp hi
  have hsplit : pairs = pairs.take i ++ (name, a) :: pairs.drop (i + 1) := by
    rw [← hpair, List.getElem_cons_drop, List.take_append_drop]
  have hafter : ∀ pair ∈ pairs.drop (i + 1), pair.1 ≠ name := by
    intro pair hmem
    obtain ⟨k, hk⟩ := List.mem_iff_getElem?.mp hmem
    rw [List.getElem?_drop] at hk
    exact hlast _ pair (by omega) hk
  rw [hsplit, ofList, List.foldl_append, List.foldl_cons, get?_foldl_of_forall_ne hafter,
    get?_insert, if_pos rfl]

end OnePassSql.NameMap

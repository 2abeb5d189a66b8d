/-!
Values by name, in the order of the names. Inserting under a name that is there replaces the value.
-/

namespace OnePassSql

/-- Values by name. The entries stand in the order of their names, one for each. -/
structure NameMap (α : Type) where
  entries : List (String × α)

namespace NameMap

variable {α : Type}

/-- No name has a value. -/
def empty : NameMap α := ⟨[]⟩

/-- The value under the name. -/
def get? (m : NameMap α) (name : String) : Option α := m.entries.lookup name

/-- There is a value under the name. -/
def contains (m : NameMap α) (name : String) : Bool := (m.get? name).isSome

/-- Puts an entry at its place in the order, instead of one with the same name. -/
def insertEntry (name : String) (a : α) : List (String × α) → List (String × α)
  | [] => [(name, a)]
  | entry :: rest =>
    if name = entry.1 then (name, a) :: rest
    else if name < entry.1 then (name, a) :: entry :: rest
    else entry :: insertEntry name a rest

/-- Puts a value under the name. -/
def insert (m : NameMap α) (name : String) (a : α) : NameMap α :=
  ⟨insertEntry name a m.entries⟩

/-- Takes the value under the name away. -/
def erase (m : NameMap α) (name : String) : NameMap α :=
  ⟨m.entries.filter fun entry => entry.1 != name⟩

/-- The names, in order. -/
def names (m : NameMap α) : List String := m.entries.map Prod.fst

/-- How many names have a value. -/
def size (m : NameMap α) : Nat := m.entries.length

/-- The map of a list of pairs; of pairs with one name the last counts. -/
def ofList (pairs : List (String × α)) : NameMap α :=
  pairs.foldl (fun m pair => m.insert pair.1 pair.2) empty

@[simp] theorem get?_empty (name : String) : (empty : NameMap α).get? name = none := rfl

theorem lookup_cons_ite (name : String) (entry : String × α) (rest : List (String × α)) :
    (entry :: rest).lookup name = if name = entry.1 then some entry.2 else rest.lookup name := by
  obtain ⟨key, a⟩ := entry
  rw [List.lookup_cons]
  split <;> simp_all

theorem get?_insert (m : NameMap α) (name other : String) (a : α) :
    (m.insert name a).get? other = if other = name then some a else m.get? other := by
  suffices h : ∀ entries : List (String × α),
      (insertEntry name a entries).lookup other =
        if other = name then some a else entries.lookup other from h m.entries
  intro entries
  induction entries with
  | nil => simp [insertEntry, lookup_cons_ite]
  | cons entry rest ih => grind [insertEntry, lookup_cons_ite]

theorem insertEntry_comm {name other : String} (h : name < other) (a b : α)
    (entries : List (String × α)) :
    insertEntry other b (insertEntry name a entries)
      = insertEntry name a (insertEntry other b entries) := by
  induction entries with
  | nil => grind [insertEntry]
  | cons entry rest ih => grind [insertEntry]

/-- Values under different names can be put there in either order. -/
theorem insert_comm (m : NameMap α) {name other : String} (h : name ≠ other) (a b : α) :
    (m.insert name a).insert other b = (m.insert other b).insert name a := by
  have hlt : name < other ∨ other < name := by grind
  rcases hlt with hlt | hlt
  · exact congrArg NameMap.mk (insertEntry_comm hlt a b m.entries)
  · exact congrArg NameMap.mk (insertEntry_comm hlt b a m.entries).symm

theorem get?_erase (m : NameMap α) (name other : String) :
    (m.erase name).get? other = if other = name then none else m.get? other := by
  suffices h : ∀ entries : List (String × α),
      (entries.filter fun entry => entry.1 != name).lookup other =
        if other = name then none else entries.lookup other from h m.entries
  intro entries
  induction entries with
  | nil => simp
  | cons entry rest ih => grind [lookup_cons_ite]

end NameMap

end OnePassSql

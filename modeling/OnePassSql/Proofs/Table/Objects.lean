import OnePassSql.Database.Query
import OnePassSql.Proofs.NameMap
import OnePassSql.Proofs.Result
import OnePassSql.Table.Json

/-!
The objects that the rows of a table are in JSON. An object has a member for each column name, and
its member for a repeated name is the cell of the last column of that name, where names in
expressions and lookups mean the first.
-/

namespace OnePassSql

/-! ## Values that are the same in JSON -/

namespace Value

/-- What JSON shows of the value: null for a real that is no finite number, and the literal of a
blob. -/
def shown : Value → Value
  | real x =>
    match Binary64.decode x with
    | .finite _ => real x
    | _ => null
  | blob bytes => text (blob bytes).written
  | v => v

theorem toJson_shown (v : Value) : v.shown.toJson = v.toJson := by
  cases v with
  | real x =>
      cases h : Binary64.decode x <;> simp [shown, toJson, h]
  | _ => rfl

/-- The value that a scalar of JSON shows. -/
def ofShown : Json → Value
  | .integer n => integer (Int64.ofInt n)
  | .real x => real x
  | .text s => text s
  | _ => null

theorem ofShown_toJson (v : Value) : ofShown v.toJson = v.shown := by
  cases v with
  | integer n => exact congrArg integer (Int64.ofInt_toInt n)
  | real x => cases h : Binary64.decode x <;> simp [shown, toJson, ofShown, h]
  | _ => rfl

/-- Two values are the same in JSON exactly if JSON shows the same of them. -/
theorem toJson_eq_iff {v w : Value} : v.toJson = w.toJson ↔ v.shown = w.shown := by
  constructor
  · intro h
    rw [← ofShown_toJson, ← ofShown_toJson, h]
  · intro h
    rw [← v.toJson_shown, h, toJson_shown]

end Value

/-! ## The last of several -/

/-- If a list has an item with a property, it has a last one. -/
theorem exists_last {α : Type} {p : α → Prop} {l : List α} {x : α}
    (hx : x ∈ l) (hp : p x) :
    ∃ (i : Nat) (y : α), l[i]? = some y ∧ p y ∧ ∀ j z, i < j → l[j]? = some z → ¬ p z := by
  induction l generalizing x with
  | nil => cases hx
  | cons head rest ih =>
      by_cases h : ∃ y ∈ rest, p y
      · obtain ⟨y, hy, hpy⟩ := h
        obtain ⟨i, z, hz, hpz, hlast⟩ := ih hy hpy
        refine ⟨i + 1, z, hz, hpz, fun j w hj hw => ?_⟩
        cases j with
        | zero => omega
        | succ j => exact hlast j w (by omega) hw
      · have hnone : ∀ y ∈ rest, ¬ p y := by simpa using h
        have hhead : x = head := (List.mem_cons.mp hx).resolve_right fun hmem => hnone x hmem hp
        refine ⟨0, head, rfl, hhead ▸ hp, fun j w hj hw => ?_⟩
        cases j with
        | zero => omega
        | succ j => exact hnone w (List.mem_of_getElem? hw)

namespace Table

variable {ρ : Type} [Record ρ] {t : Table}

/-- The column is the last of its name. -/
def LastNamed (t : Table) (name : String) (column : Nat) : Prop :=
  ∃ c, t.columns[column]? = some c ∧ c.name = name ∧
    ∀ j d, column < j → t.columns[j]? = some d → d.name ≠ name

theorem exists_lastNamed {name : String} {first : Nat} (h : t.columnIndex? name = some first) :
    ∃ last, t.LastNamed name last := by
  obtain ⟨hlt, hname, -⟩ := List.findIdx?_eq_some_iff_getElem.mp h
  obtain ⟨last, c, hc, heq, hlast⟩ := exists_last (p := fun c : Column => c.name = name)
    (List.getElem_mem hlt) (by simpa using hname)
  exact ⟨last, c, hc, heq, hlast⟩

theorem lastNamed_unique {name : String} {i j : Nat} (hi : t.LastNamed name i)
    (hj : t.LastNamed name j) : i = j := by
  obtain ⟨c, hc, hcname, hbehind⟩ := hi
  obtain ⟨d, hd, hdname, hbehind'⟩ := hj
  rcases Nat.lt_trichotomy i j with hlt | heq | hgt
  · exact absurd hdname (hbehind j d hlt hd)
  · exact heq
  · exact absurd hcname (hbehind' i c hgt hc)

/-- The members of the object of a row. -/
def rowMembers (records : Records ρ) (t : Table) (row : Nat) : List (String × Json) :=
  (NameMap.ofList (t.columns.zipIdx.map fun (c, column) =>
    (c.name, (t.cell records row column).toJson))).entries

theorem toJson_eq (records : Records ρ) (t : Table) : t.toJson records
    = .array (((List.range t.rows.length).map (t.rowMembers records)).map Json.object) := by
  rw [toJson, List.map_map]
  rfl

/-- The keys of a row's object are in ascending order. -/
theorem pairwise_rowMembers (records : Records ρ) (t : Table) (row : Nat) :
    ((t.rowMembers records row).map Prod.fst).Pairwise (· < ·) := NameMap.pairwise_names_ofList

theorem mem_rowMembers (records : Records ρ) (t : Table) (row : Nat) (name : String) :
    name ∈ (t.rowMembers records row).map Prod.fst ↔ name ∈ t.columns.map Column.name := by
  refine NameMap.mem_names_ofList.trans ?_
  have hnames : (t.columns.zipIdx.map fun (c, column) =>
      (c.name, (t.cell records row column).toJson)).map Prod.fst = t.columns.map Column.name := by
    refine List.ext_getElem? fun j => ?_
    simp [List.getElem?_zipIdx, Option.map_map, Function.comp_def]
  rw [hnames]

/-- The member under a name is the cell of the last column of the name. -/
theorem lookup_rowMembers {name : String} {last : Nat} (h : t.LastNamed name last)
    (records : Records ρ) (row : Nat) :
    (t.rowMembers records row).lookup name = some (t.cell records row last).toJson := by
  obtain ⟨c, hc, rfl, hlast⟩ := h
  refine NameMap.get?_ofList_of_last (i := last) ?_ fun j pair hj hpair => ?_
  · simp [List.getElem?_zipIdx, hc]
  · obtain ⟨⟨d, column⟩, hd, rfl⟩ := Option.map_eq_some_iff.mp (List.getElem?_map ▸ hpair)
    rw [List.getElem?_zipIdx] at hd
    obtain ⟨d', hd', heq⟩ := Option.map_eq_some_iff.mp hd
    cases heq
    exact hlast j d hj hd'

/-- The JSON of a table has an object for each row, with the names of the columns as its keys. Under
a name stands the cell of the last column of the name; it is the cell of the first one, which
lookups mean, exactly if JSON shows the same of the two. -/
theorem toJson_member_iff (records : Records ρ) (t : Table) :
    ∃ objects : List (List (String × Json)), t.toJson records = .array (objects.map Json.object) ∧
      objects.length = t.rows.length ∧
      ∀ row members, objects[row]? = some members → (members.map Prod.fst).Nodup ∧
        (∀ name, name ∈ members.map Prod.fst ↔ name ∈ t.columns.map Column.name) ∧
        ∀ name first, t.columnIndex? name = some first → ∃ last, t.LastNamed name last ∧
          members.lookup name = some (t.cell records row last).toJson ∧
          (members.lookup name = some (t.cell records row first).toJson ↔
            (t.cell records row last).shown = (t.cell records row first).shown) := by
  refine ⟨_, toJson_eq records t, by simp, fun row members hmembers => ?_⟩
  obtain ⟨row', hrow, rfl⟩ := Option.map_eq_some_iff.mp (List.getElem?_map ▸ hmembers)
  obtain ⟨hlt, rfl⟩ := List.getElem?_eq_some_iff.mp hrow
  rw [List.getElem_range]
  refine ⟨(pairwise_rowMembers records t row).imp fun h => String.ne_of_lt h,
    mem_rowMembers records t row, fun name first hfirst => ?_⟩
  obtain ⟨last, hlast⟩ := exists_lastNamed hfirst
  refine ⟨last, hlast, lookup_rowMembers hlast records row, ?_⟩
  rw [lookup_rowMembers hlast records row, Option.some_inj, Value.toJson_eq_iff]

/-- What `SELECT 1 UNION SELECT 1` gives: the values stand under the first of two columns. -/
def repeatedOne : Table :=
  ⟨[.plain "1" .integer, .plain "1" .integer],
    [.owned [.integer 1, .null], .owned [.integer 1, .null]]⟩

theorem lastNamed_repeatedOne : repeatedOne.LastNamed "1" 1 := by
  refine ⟨_, rfl, rfl, fun j d hj hd => ?_⟩
  match j, hj with
  | j + 2, _ => cases hd

theorem null_repeatedOne (records : Records CellRecord) (row : Nat) :
    repeatedOne.cell records row 1 = .null := by
  match row with
  | 0 | 1 | row + 2 => rfl

/-- A table whose JSON shows none of its values. -/
theorem toJson_member_iff_repeatedOne :
    let records : Records CellRecord := ⟨[]⟩
    (Database.standard.query records "SELECT 1 UNION SELECT 1" []).answer = .ok repeatedOne ∧
      repeatedOne.columnIndex? "1" = some 0 ∧ repeatedOne.cell records 0 0 = .integer 1 ∧
      ∃ objects : List (List (String × Json)),
        repeatedOne.toJson records = .array (objects.map Json.object) ∧ objects.length = 2 ∧
        ∀ members ∈ objects, (∀ name, name ∈ members.map Prod.fst ↔ name = "1") ∧
          members.lookup "1" = some .null := by
  intro records
  have hanswer : (Database.standard.query records "SELECT 1 UNION SELECT 1" []).answer.toOption
      = some repeatedOne := by
    decide +kernel
  have hfirst : repeatedOne.columnIndex? "1" = some 0 := by decide
  obtain ⟨objects, hjson, hlength, hall⟩ := toJson_member_iff records repeatedOne
  refine ⟨Result.eq_ok_of_toOption hanswer, hfirst, rfl, objects, hjson, hlength,
    fun members hmembers => ?_⟩
  obtain ⟨row, hrow⟩ := List.mem_iff_getElem?.mp hmembers
  obtain ⟨-, hkeys, hlookup⟩ := hall row members hrow
  obtain ⟨last, hlast, hmember, -⟩ := hlookup "1" 0 hfirst
  refine ⟨fun name => (hkeys name).trans (by simp [repeatedOne, Column.plain]), ?_⟩
  obtain rfl : last = 1 := lastNamed_unique hlast lastNamed_repeatedOne
  rw [hmember, null_repeatedOne]
  rfl

/-- The members of the objects are not the cells that lookups by name give. -/
theorem not_toJson_member_first : ¬ ∀ (records : Records CellRecord) (t : Table) (row first : Nat)
    (name : String), row < t.rows.length → t.columnIndex? name = some first →
    ∃ (objects : List (List (String × Json))) (members : List (String × Json)),
      t.toJson records = .array (objects.map Json.object) ∧ objects[row]? = some members ∧
      members.lookup name = some (t.cell records row first).toJson := by
  intro h
  obtain ⟨objects, members, hjson, hrow, hmember⟩ := h ⟨[]⟩ repeatedOne 0 0 "1" (by decide)
    (by decide)
  rw [toJson_eq] at hjson
  have hobjects := List.map_injective_iff.mpr (fun _ _ => Json.object.inj) (Json.array.inj hjson)
  subst hobjects
  cases hrow
  rw [lookup_rowMembers lastNamed_repeatedOne, null_repeatedOne] at hmember
  cases hmember

end Table

end OnePassSql

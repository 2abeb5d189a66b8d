import OnePassSql.Value.Basic

/-! Values bound to the parameters of a statement, by index. -/

namespace OnePassSql

/-- Values by parameter index. No null is stored: a parameter bound to null reads as one that is
not bound. -/
structure Bindings where
  entries : List (Nat × Value)
deriving DecidableEq

namespace Bindings

/-- No parameter is bound. -/
def empty : Bindings := ⟨[]⟩

/-- The value bound to the parameter, null if there is none. -/
def valueAt (b : Bindings) (index : Nat) : Value :=
  (b.entries.lookup index).getD .null

/-- Forgets the parameter's value. -/
def erase (b : Bindings) (index : Nat) : Bindings :=
  ⟨b.entries.filter fun entry => entry.1 != index⟩

/-- Binds a value to the parameter; null takes the binding away. -/
def bind (b : Bindings) (index : Nat) (v : Value) : Bindings :=
  if v.isNull then b.erase index else ⟨(index, v) :: (b.erase index).entries⟩

/-- Binds a list of values to the parameters from `index` on. -/
def bindFrom (b : Bindings) (index : Nat) : List Value → Bindings
  | [] => b
  | v :: rest => (b.bind index v).bindFrom (index + 1) rest

/-- The bindings of a list of values to the parameters 0, 1, 2, … -/
def ofList (values : List Value) : Bindings := empty.bindFrom 0 values

end Bindings

end OnePassSql

import EventRules.Value
import Std.Data.TreeMap

/-!
# `EventRules.Event.Args`: the arguments of an event

The values that one occurrence of an event carries, by name.
-/

set_option autoImplicit false

namespace EventRules

/-- Values by name. -/
structure Args where
  values : Std.TreeMap String Value

namespace Args

/-- No arguments. -/
def empty : Args := ⟨∅⟩

/-- Stores a value under a name, in the place of any other. -/
def insert (name : String) (value : Value) (args : Args) : Args :=
  ⟨args.values.insert name value⟩

/-- The value under a name. -/
def get? (args : Args) (name : String) : Option Value :=
  args.values[name]?

/-- The number of arguments. -/
def size (args : Args) : Nat :=
  args.values.size

/-- Whether there are none. -/
def isEmpty (args : Args) : Bool :=
  args.values.isEmpty

/-- The string under a name. -/
def string? (args : Args) (name : String) : Option String :=
  args.get? name >>= Value.string?

/-- The number under a name, integers included. -/
def number? (args : Args) (name : String) : Option Double :=
  args.get? name >>= Value.number?

/-- The integer under a name. -/
def int? (args : Args) (name : String) : Option Int64 :=
  args.get? name >>= Value.int?

/-- The boolean under a name. -/
def bool? (args : Args) (name : String) : Option Bool :=
  args.get? name >>= Value.bool?

theorem get?_empty (name : String) : empty.get? name = none := by
  simp [empty, get?]

theorem get?_insert_self (name : String) (value : Value) (args : Args) :
    (args.insert name value).get? name = some value := by
  simp [insert, get?]

theorem get?_insert_of_ne {name other : String} (h : other ≠ name) (value : Value)
    (args : Args) : (args.insert name value).get? other = args.get? other := by
  simp [insert, get?, Std.TreeMap.getElem?_insert, h.symm]

end Args

end EventRules

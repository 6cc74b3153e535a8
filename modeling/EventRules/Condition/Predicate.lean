import EventRules.Condition.Comparator
import EventRules.Event

/-!
# `EventRules.Condition.Predicate`: conditions on the arguments

A predicate compares one property of an event with a literal. It is
false of an argument that the event does not declare, that is absent, or
that cannot have the declared kind.
-/

set_option autoImplicit false

namespace EventRules

/-- A comparison of a named property. -/
structure Predicate where
  field : String
  comparator : Comparator
  deriving DecidableEq

namespace Predicate

/-- Whether the arguments of an occurrence of the event satisfy the
predicate. -/
def test (predicate : Predicate) (event : Event) (args : Args) : Bool :=
  match event.property? predicate.field with
  | none => false
  | some property => (property.read args).any predicate.comparator.compare

/-- Whether the arguments satisfy every predicate. -/
def testAll (predicates : List Predicate) (event : Event) (args : Args) : Bool :=
  predicates.all (·.test event args)

/-- The predicate as a script writes it. -/
def text (predicate : Predicate) : String :=
  predicate.field ++ " " ++ predicate.comparator.text

end Predicate

end EventRules

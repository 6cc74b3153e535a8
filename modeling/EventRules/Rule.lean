import EventRules.Rule.Action

/-!
# `EventRules.Rule`: rules and rulesets

A rule performs its action when its event occurs and its predicates
hold. A ruleset is rules in the order they are tried.
-/

set_option autoImplicit false

namespace EventRules

/-- An action with the event and the predicates that trigger it. -/
structure Rule (α : Type) where
  /-- The name of the event. -/
  event : String
  action : Action α
  predicates : List Predicate
  /-- The line of the rule's `ON`, if the rule comes from a script. -/
  line : Option Nat
  deriving DecidableEq

namespace Rule

variable {α : Type}

/-- The predicates as a script writes them after an event. -/
def predicatesText : List Predicate → String
  | [] => ""
  | first :: rest =>
    " WITH " ++ first.text ++ String.join (rest.map fun predicate => " AND " ++ predicate.text)

/-- The rule on one line. -/
def text (rule : Rule α) : String :=
  rule.action.text ++ " ON " ++ rule.event ++ predicatesText rule.predicates

end Rule

/-- Rules in the order they are tried. -/
structure Ruleset (α : Type) where
  rules : List (Rule α)
  deriving DecidableEq

namespace Ruleset

variable {α : Type}

/-- The number of rules. -/
def size (ruleset : Ruleset α) : Nat :=
  ruleset.rules.length

/-- Whether there are no rules. -/
def isEmpty (ruleset : Ruleset α) : Bool :=
  ruleset.rules.isEmpty

/-- The rules of an event, in order. -/
def rulesFor (event : String) (ruleset : Ruleset α) : List (Rule α) :=
  ruleset.rules.filter (·.event = event)

/-- The number of rules in words. -/
def text (ruleset : Ruleset α) : String :=
  "Ruleset(" ++ toString ruleset.size ++ " rules)"

end Ruleset

end EventRules

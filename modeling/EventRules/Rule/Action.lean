import EventRules.Condition.Predicate
import EventRules.Script.Token
import EventRules.Text.Span

/-!
# `EventRules.Rule.Action`: what a rule does

An action is a tree: at its leaves stand plugins, the actions that the
host of the rules has registered, and a conditional chooses between
branches. The type `α` of plugins is the host's.
-/

set_option autoImplicit false

namespace EventRules

/-- An action tree over plugins of type `α`. -/
inductive Action (α : Type) where
  /-- A plugin, the name it goes by and the words it was made from. -/
  | leaf (name : String) (args : List Token) (plugin : α)
  /-- A branch that is taken if the condition holds. -/
  | ifThen (condition : List Predicate) (body : Action α)
  /-- Two branches, one taken if the condition holds and one if not. -/
  | ifThenElse (condition : List Predicate) (body otherwise : Action α)
  deriving DecidableEq

namespace Action

variable {α : Type}

/-- The action of a plugin. Names are kept in upper case. -/
def ofPlugin (name : String) (args : List Token) (plugin : α) : Action α :=
  leaf (Text.upper name) args plugin

/-- The conditional with the branches. -/
def conditional (condition : List Predicate) (body : Action α) :
    Option (Action α) → Action α
  | none => ifThen condition body
  | some otherwise => ifThenElse condition body otherwise

/-- The action's name. -/
def name : Action α → String
  | leaf name _ _ => name
  | ifThen _ _ | ifThenElse _ _ _ => "IF"

/-- An argument as a script writes it: a group in a span of its own. -/
def argText (token : Token) : String :=
  match token.kind with
  | .group => Text.Span.write token.text
  | .word | .emptyLine => token.text

/-- The predicates of a condition as a script writes them. -/
def conditionText (condition : List Predicate) : String :=
  String.intercalate " AND " (condition.map Predicate.text)

/-- The action as a script writes it. -/
def text : Action α → String
  | leaf name args _ => String.intercalate " " (name :: args.map argText)
  | ifThen condition body =>
    "IF " ++ conditionText condition ++ " THEN " ++ body.text
  | ifThenElse condition body otherwise =>
    "IF " ++ conditionText condition ++ " THEN " ++ body.text ++ " ELSE " ++ otherwise.text

end Action

end EventRules

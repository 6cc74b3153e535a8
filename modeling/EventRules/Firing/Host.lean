import EventRules.Firing.Context
import EventRules.Firing.Outcome

/-!
# `EventRules.Firing.Host`: what the host of the rules supplies

The library leaves three things to the program that uses it: how an
action is made from its words, what performing it does, and what an
expression stands for.
-/

set_option autoImplicit false

namespace EventRules

/-- Action factories `φ`, the plugins `α` they make, and expressions
`ε`. -/
class Host (φ : Type) (α ε : outParam Type) where
  /-- Makes a plugin of the words after its name. -/
  build : φ → Platform φ ε → List String → Except SyntaxError α
  /-- Performs a plugin. -/
  perform : α → Context φ α ε → Outcome
  /-- The value of the expression registered under a name. -/
  evaluate : ε → String → Context φ α ε → Option Value

namespace Expression

variable {φ α ε : Type} [Host φ α ε]

/-- The value of an expression under its name. -/
def evaluate (expression : Expression ε) (name : String) (ctx : Context φ α ε) :
    Option Value :=
  match expression with
  | eventName => some (.string ctx.eventName)
  | target => some (.string ctx.target)
  | custom expression => Host.evaluate expression name ctx

end Expression

end EventRules

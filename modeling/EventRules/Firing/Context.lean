import EventRules.Firing.Platform
import EventRules.Rule

/-!
# `EventRules.Firing.Context`: one occurrence of an event

A context is what a rule is performed with: the platform, the event's
name, target and arguments, and the rule that is being performed.
`Context.during` names that rule for the time of a computation and then
restores the one before.
-/

set_option autoImplicit false

namespace EventRules

/-- One occurrence of an event. -/
structure Context (φ α ε : Type) where
  platform : Platform φ ε
  /-- The name of the event. -/
  eventName : String
  /-- Whom the event is for. -/
  target : String
  args : Args
  /-- The rule that is being performed. -/
  rule : Option (Rule α)

namespace Context

variable {φ α ε : Type}

/-- An occurrence without target and arguments, outside of any rule. -/
def ofEvent (platform : Platform φ ε) (eventName : String) : Context φ α ε :=
  ⟨platform, eventName, "", .empty, none⟩

/-- The event, if it is registered. -/
def event? (ctx : Context φ α ε) : Option Event :=
  ctx.platform.event? ctx.eventName

/-- Stores an argument. -/
def insert (name : String) (value : Value) (ctx : Context φ α ε) : Context φ α ε :=
  { ctx with args := ctx.args.insert name value }

/-- The context with the rule as the one being performed. -/
def withRule (rule : Option (Rule α)) (ctx : Context φ α ε) : Context φ α ε :=
  { ctx with rule }

/-- The result of a computation in which the rule is being performed,
and the context after it, in which the rule is what it was before. -/
def during {β : Type} (rule : Rule α) (compute : Context φ α ε → β) (ctx : Context φ α ε) :
    β × Context φ α ε :=
  let bound := ctx.withRule (some rule)
  (compute bound, bound.withRule ctx.rule)

end Context

end EventRules

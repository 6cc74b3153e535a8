import EventRules.Firing.Host
import EventRules.Text.Template

/-!
# `EventRules.Firing.Interpolation`: placeholders in a context

`Context.interpolate` fills in the placeholders of a text with the
values of the platform's expressions. An expression without a value
leaves nothing in its place, and a name without an expression stays as
it is written.
-/

set_option autoImplicit false

namespace EventRules.Context

variable {φ α ε : Type} [Host φ α ε]

/-- What a placeholder is replaced by. -/
def slotValue (ctx : Context φ α ε) (name : String) : String :=
  match ctx.platform.expression? name with
  | none => Text.Template.slotText name
  | some expression => ((expression.evaluate name ctx).map Value.text).getD ""

/-- The text with its placeholders filled in. -/
def interpolate (ctx : Context φ α ε) (text : String) : String :=
  Text.Template.fill ctx.slotValue text

end EventRules.Context

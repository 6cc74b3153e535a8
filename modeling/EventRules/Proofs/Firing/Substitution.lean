import EventRules.Firing.Interpolation
import EventRules.Proofs.Firing.Echo
import EventRules.Proofs.Text.Placeholders

/-!
# `EventRules.Proofs.Firing.Substitution`: values in the place of names

Filling in the placeholders of a text in a context is one substitution,
from left to right. `Context.SubstitutesOnce` says what that means: what a
placeholder alone is replaced by, that the parts of a text are filled in
apart, and which texts stay as they are. A value that has placeholders in
it is put in as it stands.

The texts that stay as they are have no placeholder, or only such as no
expression is registered for. In both cases this is `Template.fill_eq_self`.
-/

set_option autoImplicit false

namespace EventRules

open Text.Template

/-- An occurrence of an event that is called like a placeholder. -/
def Echo.occurrence : Context Echo (List String) Empty :=
  .ofEvent (.ofRegistrations "Echo" [.standardExpressions]) "$\x7btarget\x7d"

namespace Context

variable {φ α ε : Type} [Host φ α ε] {ctx : Context φ α ε}

/-- Filling in the placeholders of texts is one substitution. -/
structure SubstitutesOnce (ctx : Context φ α ε) : Prop where
  /-- A text that opens no placeholder stays as it is. -/
  plain : ∀ text : String, ¬ opening <:+: text.toList → ctx.interpolate text = text
  /-- The value of an expression takes the place of the name. -/
  value : ∀ (name : String) (expression : Expression ε) (value : Value),
    '\x7d' ∉ name.toList → ctx.platform.expression? name = some expression →
    expression.evaluate name ctx = some value → ctx.interpolate (slotText name) = value.text
  /-- An expression without a value leaves nothing. -/
  noValue : ∀ (name : String) (expression : Expression ε),
    '\x7d' ∉ name.toList → ctx.platform.expression? name = some expression →
    expression.evaluate name ctx = none → ctx.interpolate (slotText name) = ""
  /-- A name without an expression stays as it is written. -/
  unregistered : ∀ name : String, '\x7d' ∉ name.toList → ctx.platform.expression? name = none →
    ctx.interpolate (slotText name) = slotText name
  /-- Two parts of a text are filled in apart, if the first one leaves no
  placeholder open and none is opened by the last character of the one and
  the first of the other. -/
  append : ∀ first second : String, Complete first.toList →
    ¬ (first.toList.getLast? = some '$' ∧ second.toList.head? = some '\x7b') →
    ctx.interpolate (first ++ second) = ctx.interpolate first ++ ctx.interpolate second
  /-- A text of which the first placeholder is never closed stays as it
  is. -/
  unclosed : ∀ before after : String, ¬ opening <:+: before.toList → '\x7d' ∉ after.toList →
    ctx.interpolate (before ++ String.ofList opening ++ after)
      = before ++ String.ofList opening ++ after
  /-- So does a text of which no placeholder has a name that is
  registered. -/
  verbatim : ∀ text : String,
    (∀ name, Names name text.toList → ctx.platform.expression? (String.ofList name) = none) →
    ctx.interpolate text = text

theorem slotValue_of_none {name : String} (h : ctx.platform.expression? name = none) :
    ctx.slotValue name = slotText name := by
  rw [slotValue, h]

theorem slotValue_of_some {name : String} {expression : Expression ε}
    (h : ctx.platform.expression? name = some expression) :
    ctx.slotValue name = ((expression.evaluate name ctx).map Value.text).getD "" := by
  rw [slotValue, h]

/-- A text whose placeholders have no expressions. -/
theorem interpolate_of_names {text : String}
    (h : ∀ name, Names name text.toList →
      ctx.platform.expression? (String.ofList name) = none) :
    ctx.interpolate text = text :=
  fill_eq_self fun name hname => slotValue_of_none (h name hname)

/-- Placeholders are filled in once, from left to right. -/
theorem interpolate_substitutesOnce (ctx : Context φ α ε) : ctx.SubstitutesOnce where
  plain text h := interpolate_of_names fun name hname => absurd hname.opens h
  value name expression value hname hexpression hvalue := by
    rw [interpolate, fill_slotText _ hname, slotValue_of_some hexpression, hvalue]
    rfl
  noValue name expression hname hexpression hvalue := by
    rw [interpolate, fill_slotText _ hname, slotValue_of_some hexpression, hvalue]
    rfl
  unregistered name hname hexpression := by
    rw [interpolate, fill_slotText _ hname, slotValue_of_none hexpression]
  append first second hfirst hcut :=
    fill_append _ hfirst fun hlast hhead => hcut ⟨hlast, hhead⟩
  unclosed before after hbefore hafter := by
    have hsecond : '\x7d' ∉ (String.ofList opening ++ after).toList := by
      simpa [opening] using hafter
    have hcut : before.toList.getLast? = some '$' →
        (String.ofList opening ++ after).toList.head? ≠ some '\x7b' := by
      simp [opening]
    have hfirst : ctx.interpolate before = before :=
      interpolate_of_names fun name hname => absurd hname.opens hbefore
    have hrest : ctx.interpolate (String.ofList opening ++ after)
        = String.ofList opening ++ after :=
      interpolate_of_names fun name hname => absurd hname.closes hsecond
    rw [String.append_assoc, interpolate, fill_append _ (complete_of_noOpening hbefore) hcut]
    exact congrArg₂ (· ++ ·) hfirst hrest
  verbatim text h := interpolate_of_names h

/-- The value of the first placeholder looks like another placeholder, and
is put in as it stands. The other ones have no expression or no end. -/
theorem interpolate_substitutesOnce_target :
    Echo.occurrence.interpolate "$$\x7bevent\x7d$\x7bnobody\x7d$\x7b"
      = "$$\x7btarget\x7d$\x7bnobody\x7d$\x7b" := by
  have h := interpolate_substitutesOnce Echo.occurrence
  have hevent : Echo.occurrence.interpolate (slotText "event") = "$\x7btarget\x7d" :=
    h.value "event" .eventName (.string "$\x7btarget\x7d") (by decide) (by decide +kernel) rfl
  have hnobody : Echo.occurrence.interpolate (slotText "nobody") = slotText "nobody" :=
    h.unregistered "nobody" (by decide) (by decide +kernel)
  have hopen : Echo.occurrence.interpolate "$\x7b" = "$\x7b" :=
    h.unclosed "" "" (by decide) (by decide)
  have hdollar : Echo.occurrence.interpolate "$" = "$" := h.plain "$" (by decide)
  calc Echo.occurrence.interpolate "$$\x7bevent\x7d$\x7bnobody\x7d$\x7b"
    _ = Echo.occurrence.interpolate
          ("$" ++ (slotText "event" ++ (slotText "nobody" ++ "$\x7b"))) := by decide +kernel
    _ = "$" ++ ("$\x7btarget\x7d" ++ (slotText "nobody" ++ "$\x7b")) := by
      rw [h.append _ _ (by decide) (by decide), h.append _ _ (by decide) (by decide),
        h.append _ _ (by decide) (by decide), hdollar, hevent, hnobody, hopen]
    _ = "$$\x7btarget\x7d$\x7bnobody\x7d$\x7b" := by decide

end Context

end EventRules

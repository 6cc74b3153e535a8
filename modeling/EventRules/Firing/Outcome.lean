/-!
# `EventRules.Firing.Outcome`: what performing an action comes to

An action either acts, declines to act, or fails; in each case it may
have put out lines before.
-/

set_option autoImplicit false

namespace EventRules

/-- The reasons why performing an action fails. -/
inductive PerformingError where
  /-- The action needs a rule around it. -/
  | outsideRule (action : String)
  /-- No event is registered under the name. -/
  | unknownEvent (event : String)
  /-- A plugin failed. -/
  | failed (action message : String)
  /-- One of several effects failed. -/
  | taskFailed (index : Nat) (message : String)
  /-- An effect broke off. -/
  | taskPanicked
  deriving DecidableEq, Repr

/-- The error in words. -/
def PerformingError.message : PerformingError → String
  | .outsideRule action => "cannot perform " ++ action ++ " action outside of a rule"
  | .unknownEvent event => "unknown event '" ++ event ++ "'"
  | .failed action message => "action '" ++ action ++ "' failed: " ++ message
  | .taskFailed index message => "task #" ++ toString index ++ " failed: " ++ message
  | .taskPanicked => "task runner worker panicked"

/-- What performing an action comes to. -/
structure Outcome where
  /-- Whether the action acted rather than declined, or why it failed. -/
  result : Except PerformingError Bool
  /-- The lines that were put out. -/
  lines : List String

namespace Outcome

/-- Acts, with the lines. -/
def acted (lines : List String) : Outcome :=
  ⟨.ok true, lines⟩

/-- Declines, with the lines. -/
def declined (lines : List String) : Outcome :=
  ⟨.ok false, lines⟩

/-- Fails after the lines. -/
def failure (error : PerformingError) (lines : List String) : Outcome :=
  ⟨.error error, lines⟩

end Outcome

end EventRules

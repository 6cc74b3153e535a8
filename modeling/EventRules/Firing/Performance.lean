import EventRules.Firing.Host

/-!
# `EventRules.Firing.Performance`: performing rules

An action tree is walked from its root to one leaf at most. A rule whose
predicates hold performs its action, bound to the context for that time.
A ruleset performs the rules of the event one after the other; one that
fails is recorded, its lines are dropped, and the next is tried all the
same.
-/

set_option autoImplicit false

namespace EventRules

variable {φ α ε : Type}

/-! ### Actions -/

/-- Whether a condition holds of the arguments, under the event of the
rule that is being performed. -/
def Context.satisfies (ctx : Context φ α ε) (condition : List Predicate) :
    Except PerformingError Bool :=
  match ctx.rule with
  | none => .error (.outsideRule "IF")
  | some rule =>
    match ctx.platform.event? rule.event with
    | none => .error (.unknownEvent rule.event)
    | some event => .ok (Predicate.testAll condition event ctx.args)

/-- Performs the leaf that the conditions lead to. A condition that
fails where there is no other branch leads to none, which counts as
acting. -/
def Action.perform [Host φ α ε] (ctx : Context φ α ε) : Action α → Outcome
  | leaf _ _ plugin => Host.perform plugin ctx
  | ifThen condition body =>
    match ctx.satisfies condition with
    | .error error => .failure error []
    | .ok true => body.perform ctx
    | .ok false => .acted []
  | ifThenElse condition body otherwise =>
    match ctx.satisfies condition with
    | .error error => .failure error []
    | .ok true => body.perform ctx
    | .ok false => otherwise.perform ctx

/-! ### Rules -/

/-- What a rule did whose predicates hold. -/
structure Firing where
  /-- Whether the action acted rather than declined. -/
  performed : Bool
  lines : List String
  deriving DecidableEq, Repr

/-- Whether the context is an occurrence of the rule's event that
satisfies its predicates. -/
def Rule.matches (rule : Rule α) (ctx : Context φ α ε) : Except PerformingError Bool :=
  if ctx.eventName ≠ rule.event then .ok false
  else
    match ctx.platform.event? rule.event with
    | none => .error (.unknownEvent rule.event)
    | some event => .ok (Predicate.testAll rule.predicates event ctx.args)

/-- What came of an action as a firing. The lines of one that failed are
dropped. -/
def Outcome.firing (outcome : Outcome) : Except PerformingError Firing :=
  match outcome.result with
  | .ok performed => .ok ⟨performed, outcome.lines⟩
  | .error error => .error error

/-- Performs the rule's action if the rule matches, and nothing
otherwise. The context comes back as it was. -/
def Rule.perform [Host φ α ε] (rule : Rule α) (ctx : Context φ α ε) :
    Except PerformingError (Option Firing) × Context φ α ε :=
  match rule.matches ctx with
  | .error error => (.error error, ctx)
  | .ok false => (.ok none, ctx)
  | .ok true =>
    let (outcome, ctx) := ctx.during rule fun ctx => rule.action.perform ctx
    (outcome.firing.map some, ctx)

/-! ### Rulesets -/

/-- What the rules of a ruleset did. Rules are named by their place in
it, counted from 0. -/
structure Performance where
  /-- The lines of the rules that acted or declined, in order. -/
  lines : List String
  /-- The rules that acted. -/
  fired : List Nat
  /-- The rules that declined. -/
  declined : List Nat
  /-- The rules that failed, and why. -/
  failures : List (Nat × PerformingError)
  deriving DecidableEq, Repr

namespace Performance

/-- Nothing was performed. -/
def empty : Performance :=
  ⟨[], [], [], []⟩

/-- Adds what the rule with the index did. -/
def record (index : Nat) (result : Except PerformingError (Option Firing))
    (performance : Performance) : Performance :=
  match result with
  | .ok none => performance
  | .ok (some ⟨true, lines⟩) =>
    { performance with
      lines := performance.lines ++ lines, fired := performance.fired ++ [index] }
  | .ok (some ⟨false, lines⟩) =>
    { performance with
      lines := performance.lines ++ lines, declined := performance.declined ++ [index] }
  | .error error =>
    { performance with failures := performance.failures ++ [(index, error)] }

/-- Whether no rule failed. -/
def isSuccess (performance : Performance) : Bool :=
  performance.failures.isEmpty

/-- The numbers of rules and lines in words. -/
def text (performance : Performance) : String :=
  toString performance.fired.length ++ " rules fired, "
    ++ toString performance.failures.length ++ " failed, "
    ++ toString performance.lines.length ++ " output lines"

end Performance

/-- Performs rules one after the other, the first of them at an index,
and adds what they did to a performance. -/
def Ruleset.performFrom [Host φ α ε] (index : Nat) :
    List (Rule α) → Performance × Context φ α ε → Performance × Context φ α ε
  | [], state => state
  | rule :: rest, (performance, ctx) =>
    let (result, ctx) := rule.perform ctx
    performFrom (index + 1) rest (performance.record index result, ctx)

/-- Performs every rule of the context's event, in order. The context
comes back as it was. -/
def Ruleset.perform [Host φ α ε] (ruleset : Ruleset α) (ctx : Context φ α ε) :
    Performance × Context φ α ε :=
  performFrom 0 ruleset.rules (.empty, ctx)

end EventRules

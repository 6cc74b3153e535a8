import EventRules.Proofs.Firing.Dispatch
import EventRules.Proofs.Firing.Echo

/-!
# `EventRules.Proofs.Firing.Routes`: the way through an action

Performing an action tree is a walk from its root. At each conditional
the predicates decide for a branch, and at a leaf a plugin is run.
`Action.route` is the walk without the plugin: the branches that are
taken, and the plugin they lead to, if they lead to one. It needs no
more of a context than the arguments and the event that declares them.

`Action.perform_eq_outcome` says that performing an action is walking it
and running that plugin. So a rule is described by two things, whether
it matches and its route (`Rule.perform_eq_of_matches`).

Predicates see an argument through the property that the event declares
under the name. An argument that is not declared, or that the property
cannot read, is not seen at all. `SeenAlike` relates arguments that look
the same in this way:

* `SeenAlike.testAll`: predicates do not tell them apart.
* `SeenAlike.route`: nor does an action tree, at any depth.
* `Rule.perform_of_seenAlike`: so a rule matches both or none, and takes
  the same route. What the plugin at its end then does may differ, since
  a plugin is free to look at the whole context.
-/

set_option autoImplicit false

namespace EventRules

variable {φ α ε : Type}

/-! ### Routes -/

/-- The branches of a conditional. -/
inductive Branch where
  /-- Taken when the condition holds. -/
  | then
  /-- Taken when it does not. -/
  | else
  deriving DecidableEq, Repr

/-- A walk through an action tree. -/
structure Route (α : Type) where
  /-- The branches taken, from the root on. -/
  branches : List Branch
  /-- The plugin of the leaf at the end. There is none where a condition
  fails and there is no other branch. -/
  plugin : Option α
  deriving DecidableEq

namespace Route

/-- The route with a branch in front. -/
def prepend (branch : Branch) (route : Route α) : Route α :=
  { route with branches := branch :: route.branches }

/-- What walking the route comes to in a context. -/
def outcome [Host φ α ε] (route : Route α) (ctx : Context φ α ε) : Outcome :=
  match route.plugin with
  | none => .acted []
  | some plugin => Host.perform plugin ctx

end Route

/-- The route of an action for arguments under an event. -/
def Action.route (event : Event) (args : Args) : Action α → Route α
  | leaf _ _ plugin => ⟨[], some plugin⟩
  | ifThen condition body =>
    if Predicate.testAll condition event args then (body.route event args).prepend .then
    else ⟨[], none⟩
  | ifThenElse condition body otherwise =>
    if Predicate.testAll condition event args then (body.route event args).prepend .then
    else (otherwise.route event args).prepend .else

/-- In a rule, a condition is tested under the rule's event. -/
theorem Context.satisfies_eq {ctx : Context φ α ε} {rule : Rule α} {event : Event}
    (hrule : ctx.rule = some rule) (hevent : ctx.platform.event? rule.event = some event)
    (condition : List Predicate) :
    ctx.satisfies condition = .ok (Predicate.testAll condition event ctx.args) := by
  simp only [satisfies, hrule, hevent]

/-- In a rule whose event is registered, an action is performed by walking
it and running the plugin at the end. -/
theorem Action.perform_eq_outcome [Host φ α ε] {ctx : Context φ α ε} {rule : Rule α}
    {event : Event} (hrule : ctx.rule = some rule)
    (hevent : ctx.platform.event? rule.event = some event) (action : Action α) :
    action.perform ctx = (action.route event ctx.args).outcome ctx := by
  induction action with
  | leaf name args plugin => rfl
  | ifThen condition body ih =>
    rw [perform, route, Context.satisfies_eq hrule hevent]
    cases Predicate.testAll condition event ctx.args with
    | true => exact ih
    | false => rfl
  | ifThenElse condition body otherwise ih ih' =>
    rw [perform, route, Context.satisfies_eq hrule hevent]
    cases Predicate.testAll condition event ctx.args with
    | true => exact ih
    | false => exact ih'

namespace Rule

/-- For its own event, a rule matches when its predicates hold. -/
theorem matches_eq_testAll {rule : Rule α} {ctx : Context φ α ε} {event : Event}
    (hname : ctx.eventName = rule.event) (hevent : ctx.platform.event? rule.event = some event) :
    rule.matches ctx = .ok (Predicate.testAll rule.predicates event ctx.args) := by
  rw [«matches», if_neg (not_not_intro hname), hevent]

/-- A rule whose event is registered does nothing or walks its route, and
leaves the context as it was. -/
theorem perform_eq_of_matches [Host φ α ε] {rule : Rule α} {ctx : Context φ α ε}
    {event : Event} (hevent : ctx.platform.event? rule.event = some event) {matched : Bool}
    (h : rule.matches ctx = .ok matched) :
    rule.perform ctx
      = (if matched then
            ((rule.action.route event ctx.args).outcome
              (ctx.withRule (some rule))).firing.map some
          else .ok none, ctx) := by
  refine Prod.ext ?_ (rule.perform_snd ctx)
  cases matched with
  | false =>
    rw [perform, h]
    rfl
  | true =>
    have hbound : (ctx.withRule (some rule)).rule = some rule := rfl
    show rule.result ctx = _
    rw [result_eq_of_matches h, outcome, Action.perform_eq_outcome hbound hevent]
    rfl

end Rule

/-! ### Arguments that look the same -/

/-- Each property of the event reads the same from both arguments. -/
def SeenAlike (event : Event) (args other : Args) : Prop :=
  ∀ property ∈ event.properties, property.read args = property.read other

namespace SeenAlike

variable {event : Event} {args other : Args}

/-- A predicate compares what the event's property reads, or nothing. -/
theorem test (h : SeenAlike event args other) (predicate : Predicate) :
    predicate.test event args = predicate.test event other := by
  unfold Predicate.test
  cases hproperty : event.property? predicate.field with
  | none => rfl
  | some property =>
    have hmem : property ∈ event.properties := List.mem_of_find?_eq_some hproperty
    simp only [h property hmem]

theorem testAll (h : SeenAlike event args other) (predicates : List Predicate) :
    Predicate.testAll predicates event args = Predicate.testAll predicates event other := by
  unfold Predicate.testAll
  simp only [h.test]

/-- The same branch is taken at every conditional. -/
theorem route (h : SeenAlike event args other) (action : Action α) :
    action.route event args = action.route event other := by
  induction action with
  | leaf name words plugin => rfl
  | ifThen condition body ih => simp only [Action.route, h.testAll, ih]
  | ifThenElse condition body otherwise ih ih' => simp only [Action.route, h.testAll, ih, ih']

end SeenAlike

namespace Rule

variable [Host φ α ε]

/-- Only declared properties that can be read decide what fires. Take two
occurrences of a rule's event that look the same through the properties
the event declares. The rule matches both or none, and in both its action
takes the same branches to the same plugin, or to none. The occurrences
may differ in everything else. -/
theorem perform_of_seenAlike {rule : Rule α} {ctx other : Context φ α ε} {event : Event}
    (hevent : ctx.platform.event? rule.event = some event)
    (hplatform : other.platform = ctx.platform) (hname : ctx.eventName = rule.event)
    (hother : other.eventName = rule.event) (h : SeenAlike event ctx.args other.args) :
    ∃ (matched : Bool) (route : Route α), ∀ occurrence ∈ [ctx, other],
      rule.matches occurrence = .ok matched
        ∧ rule.action.route event occurrence.args = route
        ∧ rule.perform occurrence
          = (if matched then
                (route.outcome (occurrence.withRule (some rule))).firing.map some
              else .ok none, occurrence) := by
  have hevent' : other.platform.event? rule.event = some event := by
    rw [hplatform]
    exact hevent
  have hmatches : rule.matches ctx = .ok (Predicate.testAll rule.predicates event ctx.args) :=
    matches_eq_testAll hname hevent
  have hmatches' : rule.matches other = .ok (Predicate.testAll rule.predicates event ctx.args) := by
    rw [matches_eq_testAll hother hevent', h.testAll]
  have hroute : rule.action.route event other.args = rule.action.route event ctx.args :=
    (h.route rule.action).symm
  refine ⟨Predicate.testAll rule.predicates event ctx.args, rule.action.route event ctx.args, ?_⟩
  rw [List.forall_mem_cons, List.forall_mem_singleton]
  refine ⟨⟨hmatches, rfl, perform_eq_of_matches hevent hmatches⟩, hmatches', hroute, ?_⟩
  rw [← hroute]
  exact perform_eq_of_matches hevent' hmatches'

end Rule

/-! ### Two gifts -/

namespace Echo

/-- A gift of some amount, with a tier. -/
def gift : Event :=
  ⟨"Gift", [⟨"amount", .int⟩, ⟨"tier", .int⟩]⟩

/-- A rule for gifts, with a conditional in another. -/
def giftRule : Rule (List String) :=
  ⟨"Gift",
    .ifThen [⟨"amount", .number .greater (.ofInt 5)⟩]
      (.ifThenElse [⟨"tier", .number .greater (.ofInt 0)⟩] (.leaf "ECHO" [] ["high"])
        (.leaf "ECHO" [] ["low"])),
    [⟨"amount", .number .greater (.ofInt 0)⟩], none⟩

/-- A gift for Ada, with a tier that is no number. -/
def firstGift : Context Echo (List String) Empty :=
  ⟨platform.addEvent gift, "Gift", "Ada",
    (Args.empty.insert "amount" (.int 7)).insert "tier" (.string "3"), none⟩

/-- A gift for Bob, with an amount that is no integer but equals one, a
remark that is not declared, and no tier. -/
def secondGift : Context Echo (List String) Empty :=
  ⟨platform.addEvent gift, "Gift", "Bob",
    (Args.empty.insert "amount" (.float (.ofInt 7))).insert "remark" (.bool true),
    some giftRule⟩

end Echo

/-- Two gifts that look the same, and the lines of the same leaf for
both. -/
theorem Rule.perform_of_seenAlike_gift :
    Echo.firstGift.platform.event? Echo.giftRule.event = some Echo.gift
      ∧ SeenAlike Echo.gift Echo.firstGift.args Echo.secondGift.args
      ∧ Echo.giftRule.action.route Echo.gift Echo.firstGift.args
        = ⟨[.then, .else], some ["low"]⟩
      ∧ (Echo.giftRule.perform Echo.secondGift).1 = .ok (some ⟨true, ["low"]⟩) := by
  have hevent : Echo.firstGift.platform.event? Echo.giftRule.event = some Echo.gift := by
    decide +kernel
  have halike : SeenAlike Echo.gift Echo.firstGift.args Echo.secondGift.args := by
    unfold SeenAlike
    decide +kernel
  have hroute : Echo.giftRule.action.route Echo.gift Echo.firstGift.args
      = ⟨[.then, .else], some ["low"]⟩ := by
    decide +kernel
  have hmatches : Echo.giftRule.matches Echo.firstGift = .ok true := by
    decide +kernel
  have hplatform : Echo.secondGift.platform = Echo.firstGift.platform := rfl
  obtain ⟨matched, route, h⟩ := perform_of_seenAlike hevent hplatform rfl rfl halike
  have hfirst := h Echo.firstGift (by simp)
  have hsecond := h Echo.secondGift (by simp)
  -- What is known of the first gift is known of the second one.
  rw [hmatches, hroute] at hfirst
  obtain ⟨hmatched, rfl, -⟩ := hfirst
  cases hmatched
  refine ⟨hevent, halike, hroute, ?_⟩
  rw [hsecond.2.2]
  rfl

end EventRules

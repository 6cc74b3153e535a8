import EventRules.Proofs.Firing.Routes

/-!
# `EventRules.Proofs.Firing.Effects`: which plugins are run

`Rule.perform` says what comes of a rule, but not how often a plugin is
run for it. So here a plugin may have effects: `Rule.performIn` is
performing a rule with plugins that are run in any monad. In the monad that
keeps a record, it tells which plugins are run and in which context
(`Rule.runs`), and `Rule.performIn_withEffect` says that this record is all
there is: in any other monad, performing the rule has the effects of the
runs on record, and then it is `Rule.perform`.

* `Action.performIn_eq_run`: in a rule, an action does no more than run
  the plugin at the end of its route. No condition on the way fails for
  want of a rule or an event, since the rule has been bound and its event
  has been found before.
* `Rule.performIn_eq_run`: so a rule that matches runs one plugin or none,
  whatever effects plugins have.

`Rule.perform_runsOnce` puts this together with what the rule comes to,
which is what that plugin does, whether it acts, declines or fails.
-/

set_option autoImplicit false

namespace EventRules

variable {φ α ε : Type} {m : Type → Type} [Monad m]

/-! ### Plugins with effects -/

/-- Performs the leaf that the conditions lead to, with the effects of its
plugin. -/
def Action.performIn (run : α → Context φ α ε → m Outcome) (ctx : Context φ α ε) :
    Action α → m Outcome
  | leaf _ _ plugin => run plugin ctx
  | ifThen condition body =>
    match ctx.satisfies condition with
    | .error error => pure (.failure error [])
    | .ok true => body.performIn run ctx
    | .ok false => pure (.acted [])
  | ifThenElse condition body otherwise =>
    match ctx.satisfies condition with
    | .error error => pure (.failure error [])
    | .ok true => body.performIn run ctx
    | .ok false => otherwise.performIn run ctx

/-- Performs the rule's action if the rule matches, with the effects of
its plugins. -/
def Rule.performIn (run : α → Context φ α ε → m Outcome) (rule : Rule α)
    (ctx : Context φ α ε) : m (Except PerformingError (Option Firing) × Context φ α ε) :=
  match rule.matches ctx with
  | .error error => pure (.error error, ctx)
  | .ok false => pure (.ok none, ctx)
  | .ok true =>
    let (outcome, ctx) := ctx.during rule fun ctx => rule.action.performIn run ctx
    (fun outcome => (outcome.firing.map some, ctx)) <$> outcome

/-- What running the end of the route comes to. -/
def Route.run (run : α → Context φ α ε → m Outcome) (ctx : Context φ α ε) (route : Route α) :
    m Outcome :=
  match route.plugin with
  | none => pure (.acted [])
  | some plugin => run plugin ctx

/-- In a rule whose event is registered, an action runs the plugin at the
end of its route and does nothing else. -/
theorem Action.performIn_eq_run (run : α → Context φ α ε → m Outcome) {ctx : Context φ α ε}
    {rule : Rule α} {event : Event} (hrule : ctx.rule = some rule)
    (hevent : ctx.platform.event? rule.event = some event) (action : Action α) :
    action.performIn run ctx = (action.route event ctx.args).run run ctx := by
  induction action with
  | leaf name args plugin => rfl
  | ifThen condition body ih =>
    rw [performIn, route, Context.satisfies_eq hrule hevent]
    cases Predicate.testAll condition event ctx.args with
    | true => exact ih
    | false => rfl
  | ifThenElse condition body otherwise ih ih' =>
    rw [performIn, route, Context.satisfies_eq hrule hevent]
    cases Predicate.testAll condition event ctx.args with
    | true => exact ih
    | false => exact ih'

namespace Rule

/-- A rule that matches finds its event. -/
theorem exists_event_of_matches {rule : Rule α} {ctx : Context φ α ε}
    (h : rule.matches ctx = .ok true) : ∃ event, ctx.platform.event? rule.event = some event := by
  obtain ⟨hname, event, hevent, -⟩ := matches_eq_ok_true_iff.1 h
  rw [← hname] at hevent
  exact ⟨event, hevent⟩

/-- It then runs the plugin at the end of its route, bound to the
context. -/
theorem performIn_eq_run (run : α → Context φ α ε → m Outcome) {rule : Rule α}
    {ctx : Context φ α ε} {event : Event} (h : rule.matches ctx = .ok true)
    (hevent : ctx.platform.event? rule.event = some event) :
    rule.performIn run ctx
      = (fun outcome => (outcome.firing.map some, ctx)) <$>
          (rule.action.route event ctx.args).run run (ctx.withRule (some rule)) := by
  have hbound : (ctx.withRule (some rule)).rule = some rule := rfl
  have haction := Action.performIn_eq_run run hbound hevent rule.action
  rw [performIn, h]
  exact congrArg _ haction

variable [Host φ α ε]

/-! ### The record of runs -/

/-- Runs a plugin after some effect. -/
def withEffect (effect : α → Context φ α ε → m Unit) (plugin : α) (ctx : Context φ α ε) :
    m Outcome := do
  effect plugin ctx
  pure (Host.perform plugin ctx)

/-- Puts the run of a plugin on record. -/
def recordRun (plugin : α) (ctx : Context φ α ε) : StateM (List (α × Context φ α ε)) Unit :=
  modify (· ++ [(plugin, ctx)])

/-- The plugins that are run when the rule is performed, one after the
other, each with the context it is run in. -/
def runs (rule : Rule α) (ctx : Context φ α ε) : List (α × Context φ α ε) :=
  ((rule.performIn (withEffect recordRun) ctx).run []).2

/-- No plugin is run for a rule that does not match. -/
theorem runs_of_matches_false {rule : Rule α} {ctx : Context φ α ε}
    (h : rule.matches ctx = .ok false) : rule.runs ctx = [] := by
  rw [runs, performIn, h]
  rfl

/-- Nor for one that cannot be told to match or not. -/
theorem runs_of_matches_error {rule : Rule α} {ctx : Context φ α ε} {error : PerformingError}
    (h : rule.matches ctx = .error error) : rule.runs ctx = [] := by
  rw [runs, performIn, h]
  rfl

/-- For one that does, it is the plugin at the end of the route. -/
theorem runs_of_matches {rule : Rule α} {ctx : Context φ α ε} {event : Event}
    (h : rule.matches ctx = .ok true)
    (hevent : ctx.platform.event? rule.event = some event) :
    rule.runs ctx
      = ((rule.action.route event ctx.args).plugin.map (·, ctx.withRule (some rule))).toList := by
  rw [runs, performIn_eq_run _ h hevent, Route.run]
  cases (rule.action.route event ctx.args).plugin <;> rfl

/-- Whatever effects plugins have, those of a rule are the effects of the
runs on record, in their order. -/
theorem performIn_withEffect [LawfulMonad m] (effect : α → Context φ α ε → m Unit)
    (rule : Rule α) (ctx : Context φ α ε) :
    rule.performIn (withEffect effect) ctx
      = ((rule.runs ctx).forM fun run => effect run.1 run.2) >>= fun _ =>
          pure (rule.perform ctx) := by
  cases hmatches : rule.matches ctx with
  | error error =>
    rw [runs_of_matches_error hmatches, performIn, perform, hmatches]
    simp
  | ok matched =>
    cases matched with
    | false =>
      rw [runs_of_matches_false hmatches, performIn, perform, hmatches]
      simp
    | true =>
      obtain ⟨event, hevent⟩ := exists_event_of_matches hmatches
      rw [performIn_eq_run _ hmatches hevent, runs_of_matches hmatches hevent,
        perform_eq_of_matches hevent hmatches, Route.run, Route.outcome]
      cases (rule.action.route event ctx.args).plugin with
      | none => simp
      | some plugin => simp [withEffect]

/-! ### One leaf at most -/

/-- What the end of a route says of the plugins that were run and of the
result. -/
def ComesTo (bound : Context φ α ε) (runs : List (α × Context φ α ε))
    (result : Except PerformingError (Option Firing)) : Option α → Prop
  | none =>
    -- A condition failed where there is no other branch.
    runs = [] ∧ result = .ok (some ⟨true, []⟩)
  | some plugin =>
    -- The result is the plugin's own. If it fails, its lines are dropped.
    runs = [(plugin, bound)]
      ∧ (∀ performed, (Host.perform plugin bound).result = .ok performed →
          result = .ok (some ⟨performed, (Host.perform plugin bound).lines⟩))
      ∧ ∀ error, (Host.perform plugin bound).result = .error error → result = .error error

/-- Performing a rule runs one leaf at most. -/
structure RunsOnce (rule : Rule α) (ctx : Context φ α ε) : Prop where
  /-- The rule that was being performed before is so again, and the rest of
  the context is as it was, whatever came of this rule. -/
  restores : (rule.perform ctx).2 = ctx
  /-- The runs on record are all there are: with effects of any kind,
  performing the rule has those of the runs, in their order. -/
  effects : ∀ {m : Type → Type} [Monad m] [LawfulMonad m] (effect : α → Context φ α ε → m Unit),
    rule.performIn (withEffect effect) ctx
      = ((rule.runs ctx).forM fun run => effect run.1 run.2) >>= fun _ =>
          pure (rule.perform ctx)
  /-- Nothing comes of a rule exactly if it does not match. -/
  idle : rule.result ctx = .ok none ↔ rule.matches ctx = .ok false
  /-- A rule fails without running a plugin exactly if it cannot be told
  whether it matches, and fails in the same way. -/
  fails : ∀ error, rule.result ctx = .error error ∧ rule.runs ctx = []
    ↔ rule.matches ctx = .error error
  /-- That is so where the event is unknown. -/
  unknown : ∀ error, rule.matches ctx = .error error → error = .unknownEvent rule.event
  /-- A rule that matches has its event. No condition fails in it, at
  whatever depth it stands, and the action is walked to the end of its
  route. -/
  walks : rule.matches ctx = .ok true → ∃ event,
    ctx.platform.event? rule.event = some event
      ∧ (∀ condition, (ctx.withRule (some rule)).satisfies condition
          = .ok (Predicate.testAll condition event ctx.args))
      ∧ ComesTo (ctx.withRule (some rule)) (rule.runs ctx) (rule.result ctx)
          (rule.action.route event ctx.args).plugin

/-- What the plugin at the end of the route comes to, or what comes of
there being none. -/
theorem comesTo_of_matches {rule : Rule α} {ctx : Context φ α ε} {event : Event}
    (h : rule.matches ctx = .ok true)
    (hevent : ctx.platform.event? rule.event = some event) :
    ComesTo (ctx.withRule (some rule)) (rule.runs ctx) (rule.result ctx)
      (rule.action.route event ctx.args).plugin := by
  rw [runs_of_matches h hevent, result, perform_eq_of_matches hevent h, Route.outcome]
  cases (rule.action.route event ctx.args).plugin with
  | none => exact ⟨rfl, rfl⟩
  | some plugin =>
    refine ⟨rfl, fun performed hresult => ?_, fun error hresult => ?_⟩
    · simp only [if_true, Outcome.firing, hresult]
      rfl
    · simp only [if_true, Outcome.firing, hresult]
      rfl

/-- A rule that matches does something, and fails only after running a
plugin. -/
theorem result_of_matches {rule : Rule α} {ctx : Context φ α ε}
    (h : rule.matches ctx = .ok true) :
    rule.result ctx ≠ .ok none
      ∧ ∀ error, ¬ (rule.result ctx = .error error ∧ rule.runs ctx = []) := by
  obtain ⟨event, hevent⟩ := exists_event_of_matches h
  have hcomes := comesTo_of_matches h hevent
  cases hplugin : (rule.action.route event ctx.args).plugin with
  | none =>
    rw [hplugin] at hcomes
    rw [hcomes.2]
    exact ⟨nofun, nofun⟩
  | some plugin =>
    rw [hplugin] at hcomes
    obtain ⟨hruns, hok, herror⟩ := hcomes
    refine ⟨?_, fun error h => ?_⟩
    · cases hresult : (Host.perform plugin (ctx.withRule (some rule))).result with
      | ok performed =>
        rw [hok performed hresult]
        exact nofun
      | error error =>
        rw [herror error hresult]
        exact nofun
    · rw [hruns] at h
      cases h.2

/-- Performing a rule runs one leaf at most, and never falls outside the
rule. -/
theorem perform_runsOnce (rule : Rule α) (ctx : Context φ α ε) : rule.RunsOnce ctx where
  restores := rule.perform_snd ctx
  effects effect := performIn_withEffect effect rule ctx
  idle := by
    cases hmatches : rule.matches ctx with
    | error error => simp [result, perform, hmatches]
    | ok matched =>
      cases matched with
      | false => simp [result, perform, hmatches]
      | true => simpa using (result_of_matches hmatches).1
  fails := by
    intro error
    cases hmatches : rule.matches ctx with
    | error other =>
      rw [runs_of_matches_error hmatches]
      simp [result, perform, hmatches]
    | ok matched =>
      cases matched with
      | false => simp [result, perform, hmatches]
      | true => simpa using (result_of_matches hmatches).2 error
  unknown := by
    intro error hmatches
    obtain ⟨hname, -, herror⟩ := matches_eq_error_iff.1 hmatches
    rw [hname]
    exact herror
  walks := by
    intro hmatches
    obtain ⟨event, hevent⟩ := exists_event_of_matches hmatches
    refine ⟨event, hevent, ?_, comesTo_of_matches hmatches hevent⟩
    have hbound : (ctx.withRule (some rule)).rule = some rule := rfl
    exact Context.satisfies_eq hbound hevent

/-- A rule that matches comes to what the plugin does that its route leads to,
under the event that is registered. -/
theorem RunsOnce.comesTo {rule : Rule α} {ctx : Context φ α ε} {event : Event}
    {plugin : Option α} (h : rule.RunsOnce ctx) (hmatches : rule.matches ctx = .ok true)
    (hevent : ctx.platform.event? rule.event = some event)
    (hplugin : (rule.action.route event ctx.args).plugin = plugin) :
    ComesTo (ctx.withRule (some rule)) (rule.runs ctx) (rule.result ctx) plugin := by
  obtain ⟨found, hfound, -, hcomes⟩ := h.walks hmatches
  obtain rfl : event = found := Option.some.inj (hevent.symm.trans hfound)
  exact hplugin ▸ hcomes

end Rule

/-! ### Plugins that do not act -/

/-- The plugins of a host none of which acts. -/
inductive Refusal where
  /-- Declines with a line. -/
  | decline
  /-- Fails after a line. -/
  | fail
  deriving DecidableEq

instance : Host Refusal Refusal Empty where
  build refusal _ _ := .ok refusal
  perform
    | .decline, _ => .declined ["too small"]
    | .fail, _ => .failure (.failed "KEEP" "no room") ["keeping"]
  evaluate expression := nomatch expression

namespace Refusal

/-- Small gifts are declined, and others fail. -/
def giftRule : Rule Refusal :=
  ⟨"Gift",
    .ifThenElse [⟨"amount", .number .greater (.ofInt 5)⟩] (.leaf "KEEP" [] .fail)
      (.leaf "KEEP" [] .decline),
    [], none⟩

/-- A gift of some amount, while a rule for raids is being performed. -/
def giftDuringRaid (amount : Int64) : Context Refusal Refusal Empty :=
  ⟨(Platform.ofName "Refusal").addEvent Echo.gift, "Gift", "Ada",
    Args.empty.insert "amount" (.int amount),
    some ⟨"Raid", .leaf "KEEP" [] .decline, [], none⟩⟩

theorem event?_giftRule (amount : Int64) :
    (giftDuringRaid amount).platform.event? giftRule.event = some Echo.gift := by
  show ((Platform.ofName "Refusal" : Platform Refusal Empty).addEvent Echo.gift).event? "Gift"
    = some Echo.gift
  decide +kernel

/-- The rule has no predicates, so it matches every gift. -/
theorem matches_giftRule (amount : Int64) :
    giftRule.matches (giftDuringRaid amount) = .ok true :=
  Rule.matches_eq_testAll rfl (event?_giftRule amount)

end Refusal

/-- A small gift is declined, with the line of the plugin. A big one fails as the
plugin does, without its line. Either plugin is run once and sees the rule for
gifts. -/
theorem Rule.perform_runsOnce_gift :
    (Refusal.giftRule.runs (Refusal.giftDuringRaid 3)
          = [(.decline, (Refusal.giftDuringRaid 3).withRule (some Refusal.giftRule))]
        ∧ Refusal.giftRule.result (Refusal.giftDuringRaid 3) = .ok (some ⟨false, ["too small"]⟩))
      ∧ Refusal.giftRule.runs (Refusal.giftDuringRaid 7)
          = [(.fail, (Refusal.giftDuringRaid 7).withRule (some Refusal.giftRule))]
        ∧ Refusal.giftRule.result (Refusal.giftDuringRaid 7)
          = .error (.failed "KEEP" "no room") := by
  constructor
  · have hplugin : (Refusal.giftRule.action.route Echo.gift (Refusal.giftDuringRaid 3).args).plugin
        = some .decline := by
      decide +kernel
    obtain ⟨hruns, hok, -⟩ := (perform_runsOnce Refusal.giftRule
      (Refusal.giftDuringRaid 3)).comesTo (Refusal.matches_giftRule 3) (Refusal.event?_giftRule 3)
        hplugin
    exact ⟨hruns, hok false rfl⟩
  · have hplugin : (Refusal.giftRule.action.route Echo.gift (Refusal.giftDuringRaid 7).args).plugin
        = some .fail := by
      decide +kernel
    obtain ⟨hruns, -, herror⟩ := (perform_runsOnce Refusal.giftRule
      (Refusal.giftDuringRaid 7)).comesTo (Refusal.matches_giftRule 7) (Refusal.event?_giftRule 7)
        hplugin
    exact ⟨hruns, herror _ rfl⟩

end EventRules

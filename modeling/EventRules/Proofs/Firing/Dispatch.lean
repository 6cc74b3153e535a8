import EventRules.Firing.Performance

/-!
# `EventRules.Proofs.Firing.Dispatch`: what a ruleset does

A ruleset tries its rules one after the other and keeps four lists. The
statements below say what each rule adds to them, whatever the others
do.

* `Rule.perform_snd`: a rule leaves the context as it found it, so each
  rule is performed as if it were alone.
* `Rule.result_eq_ok_some_iff` and `Rule.result_eq_error_iff`: what a
  rule comes to, in terms of its event, its predicates and its action.
* `Performance.ofRules`: the four lists in closed form, one entry for a
  rule, and `Ruleset.performFrom_eq`, which says that the loop computes
  them.
* `Ruleset.perform_dispatches`: the lists name the rules they should, in
  order and without overlap. The lines are those of the rules that acted
  or declined, and two rulesets one after the other are one.
-/

set_option autoImplicit false

namespace EventRules

variable {φ α ε : Type}

/-! ### One rule -/

namespace Rule

/-- The event of the context is registered and the rule's predicates
hold of its arguments. -/
def Holds (rule : Rule α) (ctx : Context φ α ε) : Prop :=
  ∃ event, ctx.platform.event? ctx.eventName = some event
    ∧ ∀ predicate ∈ rule.predicates, predicate.test event ctx.args = true

/-- What the rule's action comes to while the rule is being performed. -/
def outcome [Host φ α ε] (rule : Rule α) (ctx : Context φ α ε) : Outcome :=
  rule.action.perform (ctx.withRule (some rule))

/-- What performing the rule comes to. -/
def result [Host φ α ε] (rule : Rule α) (ctx : Context φ α ε) :
    Except PerformingError (Option Firing) :=
  (rule.perform ctx).1

theorem matches_eq_ok_true_iff {rule : Rule α} {ctx : Context φ α ε} :
    rule.matches ctx = .ok true ↔ rule.event = ctx.eventName ∧ rule.Holds ctx := by
  -- `matches` compares the two names the other way round.
  rw [«matches», Holds]
  by_cases hevent : ctx.eventName = rule.event
  · rw [if_neg (not_not_intro hevent), ← hevent]
    cases ctx.platform.event? ctx.eventName with
    | none => simp
    | some event => simp [Predicate.testAll]
  · rw [if_pos hevent]
    simp [Ne.symm hevent]

theorem matches_eq_error_iff {rule : Rule α} {ctx : Context φ α ε}
    {error : PerformingError} :
    rule.matches ctx = .error error
      ↔ rule.event = ctx.eventName ∧ ctx.platform.event? ctx.eventName = none
          ∧ error = .unknownEvent ctx.eventName := by
  rw [«matches»]
  by_cases hevent : ctx.eventName = rule.event
  · rw [if_neg (not_not_intro hevent), ← hevent]
    cases ctx.platform.event? ctx.eventName with
    | none => simp [eq_comm]
    | some event => simp
  · rw [if_pos hevent]
    simp [Ne.symm hevent]

variable [Host φ α ε]

/-- The rule that was being performed is so again afterwards, whether
the action succeeded or failed. -/
theorem perform_snd (rule : Rule α) (ctx : Context φ α ε) : (rule.perform ctx).2 = ctx := by
  rw [perform]
  cases rule.matches ctx with
  | error error => rfl
  | ok matched => cases matched <;> rfl

theorem result_eq_of_matches {rule : Rule α} {ctx : Context φ α ε}
    (h : rule.matches ctx = .ok true) :
    rule.result ctx = (rule.outcome ctx).firing.map some := by
  rw [result, perform, h]
  rfl

/-- A rule acts or declines when it matches and its action does so. -/
theorem result_eq_ok_some_iff {rule : Rule α} {ctx : Context φ α ε} {performed : Bool}
    {lines : List String} :
    rule.result ctx = .ok (some ⟨performed, lines⟩)
      ↔ rule.event = ctx.eventName ∧ rule.Holds ctx
          ∧ (rule.outcome ctx).result = .ok performed ∧ (rule.outcome ctx).lines = lines := by
  rw [← and_assoc, ← matches_eq_ok_true_iff]
  cases hmatches : rule.matches ctx with
  | error error => simp [result, perform, hmatches]
  | ok matched =>
    cases matched with
    | false => simp [result, perform, hmatches]
    | true =>
      rw [result_eq_of_matches hmatches, Outcome.firing]
      cases (rule.outcome ctx).result <;> simp [Except.map]

/-- A rule fails when its event is unknown, or when it matches and its
action fails. -/
theorem result_eq_error_iff {rule : Rule α} {ctx : Context φ α ε}
    {error : PerformingError} :
    rule.result ctx = .error error
      ↔ rule.event = ctx.eventName
          ∧ (ctx.platform.event? ctx.eventName = none
                ∧ error = .unknownEvent ctx.eventName
              ∨ rule.Holds ctx ∧ (rule.outcome ctx).result = .error error) := by
  rw [and_or_left, ← matches_eq_error_iff, ← and_assoc, ← matches_eq_ok_true_iff]
  cases hmatches : rule.matches ctx with
  | error e => simp [result, perform, hmatches]
  | ok matched =>
    cases matched with
    | false => simp [result, perform, hmatches]
    | true =>
      rw [result_eq_of_matches hmatches, Outcome.firing]
      cases (rule.outcome ctx).result <;> simp [Except.map]

end Rule

/-! ### Many rules -/

namespace Performance

/-- The lines of a rule that acted. -/
def acted? : Except PerformingError (Option Firing) → Option (List String)
  | .ok (some ⟨true, lines⟩) => some lines
  | _ => none

/-- The lines of a rule that declined. -/
def declined? : Except PerformingError (Option Firing) → Option (List String)
  | .ok (some ⟨false, lines⟩) => some lines
  | _ => none

/-- The reason why a rule failed. -/
def failed? : Except PerformingError (Option Firing) → Option PerformingError
  | .error error => some error
  | .ok _ => none

/-- The lines that are kept of what a rule did. -/
def kept : Except PerformingError (Option Firing) → List String
  | .ok (some firing) => firing.lines
  | _ => []

/-- The performance of some rules and then of others. -/
def append (first second : Performance) : Performance :=
  ⟨first.lines ++ second.lines, first.fired ++ second.fired,
    first.declined ++ second.declined, first.failures ++ second.failures⟩

/-- The performance with all rules a number of places further on. -/
def shift (places : Nat) (performance : Performance) : Performance :=
  { performance with
    fired := performance.fired.map (· + places)
    declined := performance.declined.map (· + places)
    failures := performance.failures.map fun (i, error) => (i + places, error) }

theorem append_assoc (a b c : Performance) :
    (a.append b).append c = a.append (b.append c) := by
  simp only [append, List.append_assoc]

theorem append_empty (performance : Performance) :
    performance.append empty = performance := by
  simp only [append, empty, List.append_nil]

variable [Host φ α ε]

/-- What a selection finds in the results of the rules, each with the
place of its rule. The first rule stands at the index. -/
def picked {β : Type} (select : Except PerformingError (Option Firing) → Option β)
    (ctx : Context φ α ε) (index : Nat) (rules : List (Rule α)) : List (Nat × β) :=
  (rules.zipIdx index).filterMap fun (rule, i) => (select (rule.result ctx)).map (i, ·)

/-- The performance of the rules, of which the first stands at the
index, list by list. -/
def ofRules (ctx : Context φ α ε) (index : Nat) (rules : List (Rule α)) : Performance where
  lines := rules.flatMap fun rule => kept (rule.result ctx)
  fired := (picked acted? ctx index rules).map Prod.fst
  declined := (picked declined? ctx index rules).map Prod.fst
  failures := picked failed? ctx index rules

section Picked

variable {β : Type} {select : Except PerformingError (Option Firing) → Option β}
  {ctx : Context φ α ε} {index : Nat}

theorem mem_picked {rules : List (Rule α)} {i : Nat} {b : β} :
    (i, b) ∈ picked select ctx 0 rules
      ↔ ∃ rule, rules[i]? = some rule ∧ select (rule.result ctx) = some b := by
  simp only [picked, List.mem_filterMap, Prod.exists, List.mk_mem_zipIdx_iff_getElem?,
    Option.map_eq_some_iff, Prod.mk.injEq]
  constructor
  · rintro ⟨rule, j, hrule, b', hselect, rfl, rfl⟩
    exact ⟨rule, hrule, hselect⟩
  · rintro ⟨rule, hrule, hselect⟩
    exact ⟨rule, i, hrule, b, hselect, rfl, rfl⟩

theorem mem_picked_fst {rules : List (Rule α)} {i : Nat} :
    i ∈ (picked select ctx 0 rules).map Prod.fst
      ↔ ∃ rule, rules[i]? = some rule ∧ (select (rule.result ctx)).isSome := by
  simp only [List.mem_map, Prod.exists, mem_picked, exists_and_right, exists_eq_right,
    Option.isSome_iff_exists]
  constructor
  · rintro ⟨b, rule, hrule, hselect⟩
    exact ⟨rule, hrule, b, hselect⟩
  · rintro ⟨rule, hrule, b, hselect⟩
    exact ⟨b, rule, hrule, hselect⟩

theorem picked_singleton (rule : Rule α) :
    picked select ctx index [rule] = ((select (rule.result ctx)).map (index, ·)).toList := by
  simp only [picked, List.zipIdx_singleton, List.filterMap_cons, List.filterMap_nil]
  cases select (rule.result ctx) with
  | none => rfl
  | some b => rfl

/-- The places come from the numbering of the rules, so they increase. -/
theorem pairwise_picked (rules : List (Rule α)) :
    ((picked select ctx index rules).map Prod.fst).Pairwise (· < ·) := by
  -- They are some of the places there are.
  have hsub : ((picked select ctx index rules).map Prod.fst).Sublist
      ((rules.zipIdx index).map Prod.snd) := by
    induction rules generalizing index with
    | nil => exact List.Sublist.slnil
    | cons rule rest ih =>
      have hrest := @ih (index + 1)
      simp only [picked, List.zipIdx_cons, List.filterMap_cons, List.map_cons] at hrest ⊢
      cases select (rule.result ctx) with
      | none => exact hrest.cons _
      | some b => exact hrest.cons_cons index
  rw [List.zipIdx_map_snd] at hsub
  exact List.Pairwise.sublist hsub (List.pairwise_lt_range')

theorem picked_append (rules more : List (Rule α)) :
    picked select ctx index (rules ++ more)
      = picked select ctx index rules ++ picked select ctx (index + rules.length) more := by
  rw [picked, List.zipIdx_append, List.filterMap_append]
  rfl

theorem picked_add (places : Nat) (rules : List (Rule α)) :
    picked select ctx (index + places) rules
      = (picked select ctx index rules).map fun (i, b) => (i + places, b) := by
  induction rules generalizing index with
  | nil => rfl
  | cons rule rest ih =>
    have hrest := @ih (index + 1)
    rw [Nat.add_right_comm] at hrest
    simp only [picked, List.zipIdx_cons, List.filterMap_cons] at hrest ⊢
    cases select (rule.result ctx) with
    | none => exact hrest
    | some b =>
      simp only [Option.map_some, List.map_cons]
      rw [hrest]

end Picked

/-- One step of the loop adds the entries of one rule. -/
theorem record_eq_append (ctx : Context φ α ε) (index : Nat) (rule : Rule α)
    (performance : Performance) :
    performance.record index (rule.result ctx)
      = performance.append (ofRules ctx index [rule]) := by
  -- The rule failed, did not match, declined or acted.
  simp only [append, ofRules, picked_singleton, List.flatMap_singleton]
  cases rule.result ctx with
  | error error => simp [record, kept, acted?, declined?, failed?]
  | ok fired =>
    rcases fired with _ | ⟨_ | _, lines⟩
    · simp [record, kept, acted?, declined?, failed?]
    · simp [record, kept, acted?, declined?, failed?]
    · simp [record, kept, acted?, declined?, failed?]

theorem ofRules_append (ctx : Context φ α ε) (index : Nat) (rules more : List (Rule α)) :
    ofRules ctx index (rules ++ more)
      = (ofRules ctx index rules).append (ofRules ctx (index + rules.length) more) := by
  simp only [ofRules, append, picked_append, List.flatMap_append, List.map_append]

theorem ofRules_add (ctx : Context φ α ε) (index places : Nat) (rules : List (Rule α)) :
    ofRules ctx (index + places) rules = (ofRules ctx index rules).shift places := by
  simp only [ofRules, shift, picked_add, List.map_map]
  rfl

/-! ### What the lists hold -/

/-- What a performance of the rules should say. -/
structure Dispatches (rules : List (Rule α)) (ctx : Context φ α ε)
    (performance : Performance) : Prop where
  mem_fired : ∀ i, i ∈ performance.fired ↔ ∃ rule, rules[i]? = some rule
    ∧ rule.event = ctx.eventName ∧ rule.Holds ctx ∧ (rule.outcome ctx).result = .ok true
  mem_declined : ∀ i, i ∈ performance.declined ↔ ∃ rule, rules[i]? = some rule
    ∧ rule.event = ctx.eventName ∧ rule.Holds ctx ∧ (rule.outcome ctx).result = .ok false
  mem_failures : ∀ i error, (i, error) ∈ performance.failures ↔ ∃ rule,
    rules[i]? = some rule ∧ rule.event = ctx.eventName
      ∧ (ctx.platform.event? ctx.eventName = none ∧ error = .unknownEvent ctx.eventName
        ∨ rule.Holds ctx ∧ (rule.outcome ctx).result = .error error)
  fired_increasing : performance.fired.Pairwise (· < ·)
  declined_increasing : performance.declined.Pairwise (· < ·)
  failures_increasing : (performance.failures.map Prod.fst).Pairwise (· < ·)
  fired_declined : ∀ i ∈ performance.fired, i ∉ performance.declined
  fired_failures : ∀ i ∈ performance.fired, i ∉ performance.failures.map Prod.fst
  declined_failures : ∀ i ∈ performance.declined, i ∉ performance.failures.map Prod.fst
  /-- The lines are those of the rules that acted or declined, in order. -/
  lines_eq : performance.lines
    = (rules.zipIdx.filter fun (_, i) =>
        i ∈ performance.fired ∨ i ∈ performance.declined).flatMap
          fun (rule, _) => (rule.outcome ctx).lines
  /-- The rules that failed could be taken out without a change to the
  lines. -/
  lines_without_failures : performance.lines
    = (Ruleset.perform ⟨(rules.zipIdx.filter fun (_, i) =>
        i ∉ performance.failures.map Prod.fst).map Prod.fst⟩ ctx).1.lines

end Performance

namespace Ruleset

variable [Host φ α ε]

/-- The loop adds the entries of its rules and leaves the context as it
was. -/
theorem performFrom_eq (ctx : Context φ α ε) (rules : List (Rule α)) (index : Nat)
    (performance : Performance) :
    performFrom index rules (performance, ctx)
      = (performance.append (.ofRules ctx index rules), ctx) := by
  induction rules generalizing index performance with
  | nil => exact Prod.ext performance.append_empty.symm rfl
  | cons rule rest ih =>
    -- The rule hands on the context it was given.
    have hstep : performFrom index (rule :: rest) (performance, ctx)
        = performFrom (index + 1) rest
            (performance.record index (rule.result ctx), (rule.perform ctx).2) := rfl
    rw [hstep, Rule.perform_snd, ih, Performance.record_eq_append, Performance.append_assoc]
    exact congrArg (performance.append · , ctx)
      (Performance.ofRules_append ctx index [rule] rest).symm

theorem perform_eq (ruleset : Ruleset α) (ctx : Context φ α ε) :
    ruleset.perform ctx = (.ofRules ctx 0 ruleset.rules, ctx) := by
  rw [perform, performFrom_eq]
  rfl

end Ruleset

namespace Performance

variable [Host φ α ε] {ctx : Context φ α ε}

theorem acted?_isSome_iff {rule : Rule α} :
    (acted? (rule.result ctx)).isSome
      ↔ rule.event = ctx.eventName ∧ rule.Holds ctx ∧ (rule.outcome ctx).result = .ok true := by
  have hlines : (acted? (rule.result ctx)).isSome
      ↔ ∃ lines, rule.result ctx = .ok (some ⟨true, lines⟩) := by
    cases rule.result ctx with
    | error error => simp [acted?]
    | ok fired => rcases fired with _ | ⟨_ | _, lines⟩ <;> simp [acted?]
  simp only [hlines, Rule.result_eq_ok_some_iff, exists_and_left, exists_eq', and_true]

theorem declined?_isSome_iff {rule : Rule α} :
    (declined? (rule.result ctx)).isSome
      ↔ rule.event = ctx.eventName ∧ rule.Holds ctx ∧ (rule.outcome ctx).result = .ok false := by
  have hlines : (declined? (rule.result ctx)).isSome
      ↔ ∃ lines, rule.result ctx = .ok (some ⟨false, lines⟩) := by
    cases rule.result ctx with
    | error error => simp [declined?]
    | ok fired => rcases fired with _ | ⟨_ | _, lines⟩ <;> simp [declined?]
  simp only [hlines, Rule.result_eq_ok_some_iff, exists_and_left, exists_eq', and_true]

theorem failed?_eq_some_iff {rule : Rule α} {error : PerformingError} :
    failed? (rule.result ctx) = some error ↔ rule.result ctx = .error error := by
  cases rule.result ctx with
  | error e => simp [failed?]
  | ok fired => simp [failed?]

theorem declined?_of_acted? {result : Except PerformingError (Option Firing)}
    (h : (acted? result).isSome) : declined? result = none := by
  simp only [acted?] at h
  split at h
  · rfl
  · cases h

theorem failed?_of_acted? {result : Except PerformingError (Option Firing)}
    (h : (acted? result).isSome) : failed? result = none := by
  simp only [acted?] at h
  split at h
  · rfl
  · cases h

theorem failed?_of_declined? {result : Except PerformingError (Option Firing)}
    (h : (declined? result).isSome) : failed? result = none := by
  simp only [declined?] at h
  split at h
  · rfl
  · cases h

/-- Two selections that never find something in the same result pick
different rules. -/
theorem not_mem_picked {β γ : Type}
    {first : Except PerformingError (Option Firing) → Option β}
    {second : Except PerformingError (Option Firing) → Option γ}
    (h : ∀ {result}, (first result).isSome → second result = none) {rules : List (Rule α)} :
    ∀ i ∈ (picked first ctx 0 rules).map Prod.fst,
      i ∉ (picked second ctx 0 rules).map Prod.fst := by
  intro i hfirst hsecond
  -- There is only one rule in each place.
  obtain ⟨rule, hrule, hsome⟩ := mem_picked_fst.1 hfirst
  obtain ⟨other, hother, hothersome⟩ := mem_picked_fst.1 hsecond
  rw [hrule, Option.some.injEq] at hother
  rw [← hother, h hsome] at hothersome
  cases hothersome

/-- What is kept of a rule's result: the lines of its action, if it
acted or declined, and nothing otherwise. -/
theorem kept_result (rule : Rule α) (ctx : Context φ α ε) :
    kept (rule.result ctx)
      = if (acted? (rule.result ctx)).isSome ∨ (declined? (rule.result ctx)).isSome
        then (rule.outcome ctx).lines else [] := by
  cases h : rule.result ctx with
  | error error => simp [kept, acted?, declined?]
  | ok fired =>
    rcases fired with _ | ⟨_ | _, lines⟩
    · simp [kept, acted?, declined?]
    · simp [kept, acted?, declined?, (Rule.result_eq_ok_some_iff.1 h).2.2.2]
    · simp [kept, acted?, declined?, (Rule.result_eq_ok_some_iff.1 h).2.2.2]

/-- What adds nothing can be taken out of a concatenation. -/
theorem flatMap_filter_of_eq {σ τ : Type} {items : List σ} {keep : σ → Bool}
    {f g : σ → List τ} (h : ∀ item ∈ items, f item = if keep item then g item else []) :
    (items.filter keep).flatMap g = items.flatMap f := by
  induction items with
  | nil => rfl
  | cons item rest ih =>
    obtain ⟨hitem, hrest⟩ := List.forall_mem_cons.1 h
    rw [List.flatMap_cons, hitem, ← ih hrest]
    cases hkeep : keep item with
    | false => simp [hkeep]
    | true => simp [hkeep]

/-- The rules with their places, without the places. -/
theorem flatMap_zipIdx {τ : Type} (rules : List (Rule α)) (f : Rule α → List τ) :
    rules.zipIdx.flatMap (fun (rule, _) => f rule) = rules.flatMap f := by
  rw [← List.flatMap_map Prod.fst f, List.zipIdx_map_fst]

theorem ofRules_dispatches (rules : List (Rule α)) (ctx : Context φ α ε) :
    (ofRules ctx 0 rules).Dispatches rules ctx where
  mem_fired i := by
    simp only [ofRules, mem_picked_fst, acted?_isSome_iff]
  mem_declined i := by
    simp only [ofRules, mem_picked_fst, declined?_isSome_iff]
  mem_failures i error := by
    simp only [ofRules, mem_picked, failed?_eq_some_iff, Rule.result_eq_error_iff]
  fired_increasing := pairwise_picked rules
  declined_increasing := pairwise_picked rules
  failures_increasing := pairwise_picked rules
  fired_declined := not_mem_picked declined?_of_acted?
  fired_failures := not_mem_picked failed?_of_acted?
  declined_failures := not_mem_picked failed?_of_declined?
  lines_eq := by
    rw [ofRules, ← flatMap_zipIdx]
    refine (flatMap_filter_of_eq ?_).symm
    rintro ⟨rule, i⟩ hrule
    rw [List.mk_mem_zipIdx_iff_getElem?] at hrule
    simp only [kept_result, mem_picked_fst, hrule, Option.some.injEq, exists_eq_left',
      decide_eq_true_eq]
  lines_without_failures := by
    rw [Ruleset.perform_eq, ofRules, ofRules, List.flatMap_map, ← flatMap_zipIdx]
    refine (flatMap_filter_of_eq ?_).symm
    rintro ⟨rule, i⟩ hrule
    rw [List.mk_mem_zipIdx_iff_getElem?] at hrule
    simp only [mem_picked_fst, hrule, Option.some.injEq, exists_eq_left', decide_eq_true_eq]
    cases rule.result ctx with
    | error error => simp [kept, failed?]
    | ok fired => simp [failed?]

end Performance

/-- A ruleset performs its rules independently of each other. Each list
names exactly the rules it should, in order, and the lines are those of
the rules that acted or declined. The context comes back as it was, so
performing more rules after the first ones is performing all of them,
with the later places counted on. -/
theorem Ruleset.perform_dispatches [Host φ α ε] (ruleset : Ruleset α)
    (ctx : Context φ α ε) :
    (ruleset.perform ctx).1.Dispatches ruleset.rules ctx
      ∧ (ruleset.perform ctx).2 = ctx
      ∧ ∀ more : Ruleset α,
          Ruleset.perform ⟨ruleset.rules ++ more.rules⟩ ctx
            = ((ruleset.perform ctx).1.append
                ((more.perform (ruleset.perform ctx).2).1.shift ruleset.size),
              (more.perform (ruleset.perform ctx).2).2) := by
  simp only [Ruleset.perform_eq]
  refine ⟨Performance.ofRules_dispatches ruleset.rules ctx, trivial, fun more => ?_⟩
  rw [Performance.ofRules_append, Performance.ofRules_add]
  rfl

end EventRules

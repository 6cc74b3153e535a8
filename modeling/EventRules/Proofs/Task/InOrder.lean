import EventRules.Task.Runner

/-!
# `EventRules.Proofs.Task.InOrder`: effects are run in order

A runner runs effects up to the first that has no value. `Runner.Yields`
says that there is none: each effect has a value in the state that the one
before it leaves. `Runner.StopsAt` says where the first one is, and how it
completes. Of any effects one or the other is true
(`Runner.yields_or_stopsAt`), and each tells what the runner does
(`Runner.Yields.submit_eq`, `Runner.StopsAt.submit_eq`).

Which effects are started does not show in what they complete with. So
`Runner.starts` reads it off effects that put their place on record first
(`Runner.recordFrom`), and are otherwise the same.

`Runner.submit_runsPrefix` puts this together for both kinds of runner. They
do the same with the same effects, unless one breaks off; but an effect that
asks for the name of its worker is told another one by each
(`Runner.submit_askWorker`).
-/

set_option autoImplicit false

namespace EventRules

variable {σ β : Type}

/-- How an effect completes that has no value. -/
inductive Stop where
  | failed (error : PerformingError)
  /-- It broke off. -/
  | panicked
  deriving DecidableEq, Repr

/-- The stop as the completion of an effect, whatever its values are. -/
def Stop.completion : Stop → Completion β
  | failed error => .failed error
  | panicked => .panicked

namespace Runner

/-! ### Effects one after the other -/

/-- On the worker, each effect has a value in the state that the one before
it leaves. The values are listed in order, and the last state is the one
after all effects. -/
inductive Yields (worker : String) : List (Effect σ β) → σ → List β → σ → Prop
  | nil {state : σ} : Yields worker [] state [] state
  | cons {effect : Effect σ β} {rest : List (Effect σ β)} {state next last : σ} {b : β}
      {bs : List β} (h : effect worker state = (.value b, next))
      (hrest : Yields worker rest next bs last) :
      Yields worker (effect :: rest) state (b :: bs) last

/-- On the worker, the effects before the index have values, and the one
there has none. The last state is the one after that effect. -/
inductive StopsAt (worker : String) : List (Effect σ β) → σ → Nat → Stop → σ → Prop
  | head {effect : Effect σ β} {rest : List (Effect σ β)} {state last : σ} {stop : Stop}
      (h : effect worker state = (stop.completion, last)) :
      StopsAt worker (effect :: rest) state 0 stop last
  | tail {effect : Effect σ β} {rest : List (Effect σ β)} {state next last : σ} {b : β}
      {index : Nat} {stop : Stop} (h : effect worker state = (.value b, next))
      (hrest : StopsAt worker rest next index stop last) :
      StopsAt worker (effect :: rest) state (index + 1) stop last

/-- Either each effect has a value, or there is a first one without. -/
theorem yields_or_stopsAt (worker : String) (effects : List (Effect σ β)) (state : σ) :
    (∃ bs last, Yields worker effects state bs last)
      ∨ ∃ index stop last, StopsAt worker effects state index stop last := by
  induction effects generalizing state with
  | nil => exact .inl ⟨[], state, .nil⟩
  | cons effect rest ih =>
    cases hrun : effect worker state with
    | mk completion next =>
      cases completion with
      | value b =>
        rcases ih next with ⟨bs, last, h⟩ | ⟨index, stop, last, h⟩
        · exact .inl ⟨b :: bs, last, .cons hrun h⟩
        · exact .inr ⟨index + 1, stop, last, .tail hrun h⟩
      | failed error => exact .inr ⟨0, .failed error, next, .head hrun⟩
      | panicked => exact .inr ⟨0, .panicked, next, .head hrun⟩

/-- Effects that do the same on another worker have the same values
there. -/
theorem Yields.congr {worker other : String} {effects : List (Effect σ β)} {state last : σ}
    {bs : List β} (hsame : ∀ effect ∈ effects, effect other = effect worker)
    (h : Yields worker effects state bs last) : Yields other effects state bs last := by
  induction h with
  | nil => exact .nil
  | cons hrun _ ih =>
    rw [List.forall_mem_cons] at hsame
    exact .cons (hsame.1 ▸ hrun) (ih hsame.2)

/-- They stop at the same place, too. -/
theorem StopsAt.congr {worker other : String} {effects : List (Effect σ β)} {state last : σ}
    {index : Nat} {stop : Stop} (hsame : ∀ effect ∈ effects, effect other = effect worker)
    (h : StopsAt worker effects state index stop last) :
    StopsAt other effects state index stop last := by
  induction h with
  | head hrun =>
    rw [List.forall_mem_cons] at hsame
    exact .head (hsame.1 ▸ hrun)
  | tail hrun _ ih =>
    rw [List.forall_mem_cons] at hsame
    exact .tail (hsame.1 ▸ hrun) (ih hsame.2)

/-! ### Runs -/

/-- The completion of a run that an effect stops: an error names the place
of the effect. -/
def stopped (index : Nat) : Stop → Completion (List β)
  | .failed error => .failed (.taskFailed index error.message)
  | .panicked => .panicked

theorem prepend_stopped (b : β) (index : Nat) (stop : Stop) :
    prepend b (stopped index stop) = stopped index stop := by
  cases stop <;> rfl

theorem Yields.runFrom_eq {worker : String} {effects : List (Effect σ β)} {state last : σ}
    {bs : List β} (h : Yields worker effects state bs last) (index : Nat) :
    runFrom worker index effects state = (.value bs, last) := by
  induction h generalizing index with
  | nil => rfl
  | cons hrun _ ih =>
    simp only [runFrom, hrun, ih]
    rfl

theorem StopsAt.runFrom_eq {worker : String} {effects : List (Effect σ β)} {state last : σ}
    {place : Nat} {stop : Stop} (h : StopsAt worker effects state place stop last) (index : Nat) :
    runFrom worker index effects state = (stopped (index + place) stop, last) := by
  induction h generalizing index with
  | @head effect rest state last stop hrun =>
    cases stop <;> simp only [runFrom, hrun, Stop.completion] <;> rfl
  | @tail effect rest state next last b place stop hrun _ ih =>
    have hplace : index + 1 + place = index + (place + 1) := by omega
    simp only [runFrom, hrun, ih, prepend_stopped, hplace]

/-! ### Runners -/

/-- The worker that the effects run on. -/
def worker (runner : Runner) (submitter : String) : String :=
  match runner with
  | inline => submitter
  | thread target => workerName target

/-- The runner can have its worker. -/
def CanRun : Runner → Prop
  | inline => True
  | thread target => isWorkerName (workerName target)

/-- What the submitter gets when an effect stops the run. -/
def report (runner : Runner) (index : Nat) (stop : Stop) : Completion (List β) :=
  match runner, stop with
  | thread _, .panicked => .failed .taskPanicked
  | _, stop => stopped index stop

variable {runner : Runner} {submitter : String} {effects : List (Effect σ β)} {state last : σ}

theorem Yields.submit_eq (hrunner : runner.CanRun) {bs : List β}
    (h : Yields (runner.worker submitter) effects state bs last) :
    runner.submit submitter effects state = (.value bs, last) := by
  cases runner with
  | inline => exact h.runFrom_eq 0
  | thread target =>
    have hname : isWorkerName (workerName target) := hrunner
    have hrun : runFrom (workerName target) 0 effects state = (.value bs, last) := h.runFrom_eq 0
    simp only [submit]
    rw [if_pos hname, hrun]

theorem StopsAt.submit_eq (hrunner : runner.CanRun) {index : Nat} {stop : Stop}
    (h : StopsAt (runner.worker submitter) effects state index stop last) :
    runner.submit submitter effects state = (runner.report index stop, last) := by
  have hrun := h.runFrom_eq 0
  rw [Nat.zero_add] at hrun
  cases runner with
  | inline => exact hrun
  | thread target =>
    have hname : isWorkerName (workerName target) := hrunner
    have hthread : runFrom (workerName target) 0 effects state = (stopped index stop, last) := hrun
    simp only [submit]
    rw [if_pos hname, hthread]
    cases stop <;> rfl

/-! ### Starts -/

/-- The effect, which puts a number on record when it starts. -/
def recorded (index : Nat) (effect : Effect σ β) : Effect (σ × List Nat) β :=
  fun worker (state, record) =>
    ((effect worker state).1, (effect worker state).2, record ++ [index])

/-- The effects, which put their places on record when they start. The
first of them has the index. -/
def recordFrom (index : Nat) : List (Effect σ β) → List (Effect (σ × List Nat) β)
  | [] => []
  | effect :: rest => recorded index effect :: recordFrom (index + 1) rest

/-- The places of the effects that are started, in the order in which they
are. -/
def starts (runner : Runner) (submitter : String) (effects : List (Effect σ β)) (state : σ) :
    List Nat :=
  (runner.submit submitter (recordFrom 0 effects) (state, [])).2.2

theorem recorded_eq {effect : Effect σ β} {worker : String} {completion : Completion β}
    (h : effect worker state = (completion, last)) (index : Nat) (record : List Nat) :
    recorded index effect worker (state, record) = (completion, last, record ++ [index]) := by
  rw [recorded, h]

/-- Effects on record have the values that they have otherwise, and all are
started. -/
theorem Yields.recordFrom {worker : String} {bs : List β}
    (h : Yields worker effects state bs last) (index : Nat) (record : List Nat) :
    Yields worker (recordFrom index effects) (state, record) bs
      (last, record ++ List.range' index effects.length) := by
  induction h generalizing index record with
  | nil =>
    rw [List.length_nil, List.range'_zero, List.append_nil]
    exact .nil
  | cons hrun _ ih =>
    have hrest := ih (index + 1) (record ++ [index])
    rw [List.append_assoc] at hrest
    exact .cons (recorded_eq hrun index record) hrest

/-- They stop where they do otherwise, and are started up to there. -/
theorem StopsAt.recordFrom {worker : String} {place : Nat} {stop : Stop}
    (h : StopsAt worker effects state place stop last) (index : Nat) (record : List Nat) :
    StopsAt worker (recordFrom index effects) (state, record) place stop
      (last, record ++ List.range' index (place + 1)) := by
  induction h generalizing index record with
  | head hrun => exact .head (recorded_eq hrun index record)
  | tail hrun _ ih =>
    have hrest := ih (index + 1) (record ++ [index])
    rw [List.append_assoc] at hrest
    exact .tail (recorded_eq hrun index record) hrest

/-- All effects are started if all have values. -/
theorem Yields.starts_eq (hrunner : runner.CanRun) {bs : List β}
    (h : Yields (runner.worker submitter) effects state bs last) :
    runner.starts submitter effects state = List.range effects.length := by
  rw [starts, (h.recordFrom 0 []).submit_eq hrunner, List.nil_append, ← List.range_eq_range']

/-- Otherwise they are started up to the first without a value. -/
theorem StopsAt.starts_eq (hrunner : runner.CanRun) {index : Nat} {stop : Stop}
    (h : StopsAt (runner.worker submitter) effects state index stop last) :
    runner.starts submitter effects state = List.range (index + 1) := by
  rw [starts, (h.recordFrom 0 []).submit_eq hrunner, List.nil_append, ← List.range_eq_range']

/-! ### Both kinds of runner -/

/-- The runner runs effects in order, up to the first without a value. -/
structure RunsPrefix (runner : Runner) (submitter : String) (effects : List (Effect σ β))
    (state : σ) : Prop where
  /-- Each effect has a value, or there is a first one without. -/
  ends : (∃ bs last, Yields (runner.worker submitter) effects state bs last)
    ∨ ∃ index stop last, StopsAt (runner.worker submitter) effects state index stop last
  /-- To put the starts on record changes nothing else. -/
  records : runner.submit submitter (recordFrom 0 effects) (state, [])
    = ((runner.submit submitter effects state).1, (runner.submit submitter effects state).2,
        runner.starts submitter effects state)
  /-- If each effect has a value, all are started, in order. -/
  starts_of_yields : ∀ bs last, Yields (runner.worker submitter) effects state bs last →
    runner.starts submitter effects state = List.range effects.length
  /-- If one has none, those up to the first such effect are started, in
  order, and none after it. -/
  starts_of_stopsAt : ∀ index stop last,
    StopsAt (runner.worker submitter) effects state index stop last →
    runner.starts submitter effects state = List.range (index + 1)
  /-- The runner returns values exactly if each effect has one, and then these
  in order. -/
  value_iff : ∀ bs last, runner.submit submitter effects state = (.value bs, last)
    ↔ Yields (runner.worker submitter) effects state bs last
  /-- An error of the first effect without a value is returned with the place
  of the effect. -/
  failed : ∀ index error last,
    StopsAt (runner.worker submitter) effects state index (.failed error) last →
    runner.submit submitter effects state = (.failed (.taskFailed index error.message), last)
  /-- If that effect breaks off, so does a worker of the runner's own, which is
  an error to the submitter. -/
  panicked : ∀ target index last, runner = .thread target →
    StopsAt (runner.worker submitter) effects state index .panicked last →
    runner.submit submitter effects state = (.failed .taskPanicked, last)

theorem runsPrefix (hrunner : runner.CanRun) (submitter : String) (effects : List (Effect σ β))
    (state : σ) : runner.RunsPrefix submitter effects state where
  ends := yields_or_stopsAt _ effects state
  records := by
    rcases yields_or_stopsAt (runner.worker submitter) effects state with
      ⟨bs, last, h⟩ | ⟨index, stop, last, h⟩
    · rw [h.submit_eq hrunner, starts, (h.recordFrom 0 []).submit_eq hrunner]
    · rw [h.submit_eq hrunner, starts, (h.recordFrom 0 []).submit_eq hrunner]
  starts_of_yields _ _ h := h.starts_eq hrunner
  starts_of_stopsAt _ _ _ h := h.starts_eq hrunner
  value_iff := by
    intro bs last
    refine ⟨fun hsubmit => ?_, fun h => h.submit_eq hrunner⟩
    rcases yields_or_stopsAt (runner.worker submitter) effects state with
      ⟨bs', last', h⟩ | ⟨index, stop, last', h⟩
    · rw [h.submit_eq hrunner] at hsubmit
      cases hsubmit
      exact h
    · rw [h.submit_eq hrunner] at hsubmit
      cases runner <;> cases stop <;> cases hsubmit
  failed _ _ _ h := by
    rw [h.submit_eq hrunner]
    cases runner <;> rfl
  panicked _ _ _ hthread h := by
    rw [h.submit_eq hrunner, hthread]
    rfl

/-- Effects that do the same on the worker of either runner, and of which none
breaks off, come to the same with both. -/
theorem submit_eq_of_same {other : Runner} (hrunner : runner.CanRun) (hother : other.CanRun)
    (hsame : ∀ effect ∈ effects, effect (other.worker submitter) = effect (runner.worker submitter))
    (hpanicked : ∀ index last,
      ¬ StopsAt (runner.worker submitter) effects state index .panicked last) :
    other.submit submitter effects state = runner.submit submitter effects state
      ∧ other.starts submitter effects state = runner.starts submitter effects state := by
  rcases yields_or_stopsAt (runner.worker submitter) effects state with
    ⟨bs, last, h⟩ | ⟨index, stop, last, h⟩
  · have hthere := h.congr hsame
    rw [h.submit_eq hrunner, hthere.submit_eq hother, h.starts_eq hrunner, hthere.starts_eq hother]
    exact ⟨rfl, rfl⟩
  · have hthere := h.congr hsame
    rw [h.submit_eq hrunner, hthere.submit_eq hother, h.starts_eq hrunner, hthere.starts_eq hother]
    cases stop with
    | failed error => exact ⟨by cases runner <;> cases other <;> rfl, rfl⟩
    | panicked => exact absurd h (hpanicked index last)

/-- Both runners run effects in order, up to the first without a value. They
come to the same if no effect up to there breaks off, and none does anything
else on the one worker than on the other. -/
theorem submit_runsPrefix {target : String} (htarget : isWorkerName (workerName target))
    (submitter : String) (effects : List (Effect σ β)) (state : σ) :
    inline.RunsPrefix submitter effects state
      ∧ (thread target).RunsPrefix submitter effects state
      ∧ ((∀ effect ∈ effects, effect (workerName target) = effect submitter) →
          (∀ index last, ¬ StopsAt submitter effects state index .panicked last) →
          (thread target).submit submitter effects state = inline.submit submitter effects state
            ∧ (thread target).starts submitter effects state
              = inline.starts submitter effects state) := by
  have hinline : inline.CanRun := trivial
  have hthread : (thread target).CanRun := htarget
  exact ⟨runsPrefix hinline submitter effects state, runsPrefix hthread submitter effects state,
    submit_eq_of_same hinline hthread⟩

/-- Three effects that count, but for the second one, which fails. -/
def twoTicks : List (Effect Nat Nat) :=
  [fun _ n => (.value n, n + 1), fun _ n => (.failed (.failed "DROP" "no room"), n),
    fun _ n => (.value n, n + 1)]

/-- The third effect is not started, and the error names the place of the
second. -/
theorem submit_runsPrefix_noRoom :
    isWorkerName (workerName "streamer")
      ∧ (thread "streamer").submit "main" twoTicks 5
        = (.failed (.taskFailed 1 "action 'DROP' failed: no room"), 6)
      ∧ (thread "streamer").starts "main" twoTicks 5 = [0, 1]
      ∧ (thread "streamer").submit "main" twoTicks 5 = inline.submit "main" twoTicks 5 := by
  have hname : isWorkerName (workerName "streamer") := by decide +kernel
  obtain ⟨-, hthread, hagree⟩ := submit_runsPrefix hname "main" twoTicks 5
  have hstops : ∀ worker, StopsAt worker twoTicks 5 1 (.failed (.failed "DROP" "no room")) 6 :=
    fun _ => .tail rfl (.head rfl)
  refine ⟨hname, hthread.failed _ _ _ (hstops _), hthread.starts_of_stopsAt _ _ _ (hstops _),
    (hagree ?_ ?_).1⟩
  · intro effect heffect
    simp only [twoTicks, List.mem_cons, List.not_mem_nil, or_false] at heffect
    rcases heffect with rfl | rfl | rfl <;> rfl
  · intro index last h
    rw [twoTicks] at h
    rcases h with hrun | ⟨hrun, hrest⟩
    · cases hrun
    cases hrun
    rcases hrest with hrun | ⟨hrun, -⟩ <;> cases hrun

/-- One effect, whose value is the name of its worker. -/
def askWorker : List (Effect Unit String) :=
  [fun worker state => (.value worker, state)]

/-- A runner with a worker of its own tells an effect another name than one
without. -/
theorem submit_askWorker :
    isWorkerName (workerName "worker")
      ∧ (∀ worker index last, ¬ StopsAt worker askWorker () index .panicked last)
      ∧ inline.submit "executor-outer" askWorker () = (.value ["executor-outer"], ())
      ∧ (thread "worker").submit "executor-outer" askWorker () = (.value ["executor-worker"], ())
      ∧ (thread "worker").submit "executor-outer" askWorker ()
        ≠ inline.submit "executor-outer" askWorker () := by
  refine ⟨by decide +kernel, ?_, rfl, by decide +kernel, by decide +kernel⟩
  intro worker index last h
  rw [askWorker] at h
  rcases h with hrun | ⟨-, hrest⟩
  · cases hrun
  · cases hrest

end Runner

end EventRules

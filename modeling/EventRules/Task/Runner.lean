import EventRules.Firing.Outcome

/-!
# `EventRules.Task.Runner`: running effects in order

An effect is a step that an action hands over to be run: it changes some
state and completes with a value, with an error or by breaking off. A
runner runs effects one after the other up to the first that has no
value, on the worker that submits them or on a worker of its own, which
breaks off in place of the submitter.
-/

set_option autoImplicit false

namespace EventRules

/-- How an effect completes. -/
inductive Completion (β : Type) where
  | value (b : β)
  | failed (error : PerformingError)
  /-- It broke off. -/
  | panicked
  deriving DecidableEq, Repr

/-- A step that is told the name of the worker it runs on. -/
abbrev Effect (σ β : Type) : Type := String → σ → Completion β × σ

/-- What runs effects. -/
inductive Runner where
  /-- The worker that submits them. -/
  | inline
  /-- A worker of its own, named after the target. -/
  | thread (target : String)
  deriving DecidableEq, Repr

namespace Runner

variable {σ β : Type}

/-- Adds the values before to those of a completion. -/
def prepend (b : β) : Completion (List β) → Completion (List β)
  | .value bs => .value (b :: bs)
  | .failed error => .failed error
  | .panicked => .panicked

/-- Runs effects on a worker, the first of them having the index, up to
the first without a value. -/
def runFrom (worker : String) (index : Nat) :
    List (Effect σ β) → σ → Completion (List β) × σ
  | [], state => (.value [], state)
  | effect :: rest, state =>
    match effect worker state with
    | (.value b, state) =>
      let (completion, state) := runFrom worker (index + 1) rest state
      (prepend b completion, state)
    | (.failed error, state) => (.failed (.taskFailed index error.message), state)
    | (.panicked, state) => (.panicked, state)

/-- The name of a target's worker. -/
def workerName (target : String) : String :=
  "executor-" ++ target

/-- Whether a worker can have the name, which holds no zero
character. -/
def isWorkerName (name : String) : Bool :=
  name.toList.all (· ≠ '\x00')

/-- Runs effects that a worker submits and returns their values in
order. A worker of the runner's own that breaks off is an error to the
submitter; one that cannot have its name breaks off the submitter before
anything is run. -/
def submit (runner : Runner) (submitter : String) (effects : List (Effect σ β)) (state : σ) :
    Completion (List β) × σ :=
  match runner with
  | inline => runFrom submitter 0 effects state
  | thread target =>
    if isWorkerName (workerName target) then
      match runFrom (workerName target) 0 effects state with
      | (.panicked, state) => (.failed .taskPanicked, state)
      | completed => completed
    else (.panicked, state)

end Runner

end EventRules

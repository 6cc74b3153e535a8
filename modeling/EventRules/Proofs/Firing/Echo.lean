import EventRules.Firing.Outcome
import EventRules.Proofs.Firing.Registrations
import EventRules.Proofs.Grammar.Alike
import EventRules.Proofs.Grammar.Faults

/-!
# `EventRules.Proofs.Firing.Echo`: a small host

The echo host has one kind of action, which puts out its words, and no
expressions. It serves as the concrete host for theorems that assume
something of a platform. There are two platforms of it:

* `Echo.platform` knows the action as `ECHO` and the operators under
  their own symbols. Its errors are placed by the readers alone
  (`Echo.unplaced`).
* `Echo.lenient` knows the operator `IS` alone, which reads every text
  (`Echo.accepting`).
-/

set_option autoImplicit false

namespace EventRules

/-- The actions of the echo host. -/
inductive Echo where
  | echo
  deriving DecidableEq

/-- The action is its words, and all words make one. -/
instance : Host Echo (List String) Empty where
  build _ _ words := .ok words
  perform words _ := .acted words
  evaluate expression := nomatch expression

namespace Echo

/-- The platform of the echo host. -/
def platform : Platform Echo Empty :=
  .ofRegistrations "Echo" [.action "ECHO" .echo, .standardComparators]

/-- A platform that accepts all words and literals. -/
def lenient : Platform Echo Empty :=
  .ofRegistrations "Echo" [.action "ECHO" .echo, .comparator "IS" Operator.is.read]

end Echo

namespace Platform

variable {φ ε : Type}

/-- A comparator that is found after a registration is the registered
one or was found before. -/
theorem eq_or_comparator?_of_addComparator {platform : Platform φ ε} {symbol name : String}
    {factory found : ComparatorFactory}
    (h : (platform.addComparator symbol factory).comparator? name = some found) :
    found = factory ∨ platform.comparator? name = some found := by
  rw [comparator?_addComparator] at h
  split at h
  · cases h
    exact .inl rfl
  · exact .inr h

/-- A comparator that is found after operators are registered is one of
them or was found before. -/
theorem comparator?_foldl {operators : List Operator} {platform : Platform φ ε} {name : String}
    {found : ComparatorFactory}
    (h : (operators.foldl (fun platform operator =>
      platform.addComparator operator.symbol operator.read) platform).comparator? name
        = some found) :
    (∃ operator : Operator, found = operator.read) ∨ platform.comparator? name = some found := by
  induction operators generalizing platform with
  | nil => exact .inr h
  | cons operator rest ih =>
    rcases ih h with hread | hfound
    · exact .inl hread
    · rcases eq_or_comparator?_of_addComparator hfound with rfl | hbefore
      · exact .inl ⟨operator, rfl⟩
      · exact .inr hbefore

end Platform

namespace Echo

/-- No comparator is known before one is registered. -/
theorem comparator?_ofName (symbol : String) :
    ((Platform.ofName "Echo").addAction "ECHO" echo : Platform Echo Empty).comparator? symbol
      = none :=
  Std.TreeMap.getElem?_emptyc

/-- The operators are registered last. -/
theorem platform_eq :
    platform = ((Platform.ofName "Echo").addAction "ECHO" echo).addStandardComparators := by
  simp only [platform, Platform.ofRegistrations, List.foldl_cons, List.foldl_nil,
    Platform.register]

/-- The echo host leaves the places of errors to the readers. -/
theorem unplaced : platform.Unplaced := by
  constructor
  · intro name factory _ words
    exact FailsWith.ok words
  · intro symbol factory hfactory value
    rw [platform_eq, Platform.addStandardComparators] at hfactory
    rcases Platform.comparator?_foldl hfactory with ⟨operator, rfl⟩ | hbefore
    · exact operator.read_failsWith value
    · cases (comparator?_ofName symbol).symm.trans hbefore

/-- The lenient platform accepts everything. -/
theorem accepting : lenient.Accepting := by
  constructor
  · intro name factory _ words
    exact ⟨words, rfl⟩
  · intro symbol factory hfactory value
    rcases Platform.eq_or_comparator?_of_addComparator hfactory with rfl | hbefore
    · exact ⟨_, rfl⟩
    · cases (comparator?_ofName symbol).symm.trans hbefore

end Echo

end EventRules

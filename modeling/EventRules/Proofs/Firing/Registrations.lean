import EventRules.Firing.Platform

/-!
# `EventRules.Proofs.Firing.Registrations`: which comparator a symbol stands for

A registration changes what one symbol stands for, in one case and spacing or
another, and leaves the other symbols alone
(`Platform.comparator?_addComparator`). The operators have different symbols,
and all of them are in the form that symbols are looked up in. So a platform
knows all the operators once they are registered, and it does until one of
their symbols is registered again (`Platform.knowsOperators`).
-/

set_option autoImplicit false

namespace EventRules

/-! ### Symbols -/

namespace Operator

theorem mem_all (operator : Operator) : operator ∈ all := by
  cases operator with
  | number relation => cases relation <;> decide
  | _ => decide

/-- No two operators have the same symbol. -/
theorem symbol_injective {first second : Operator} (h : first.symbol = second.symbol) :
    first = second := by
  have hall : ∀ x ∈ all, ∀ y ∈ all, x.symbol = y.symbol → x = y := by decide
  exact hall first first.mem_all second second.mem_all h

/-- The symbols are in upper case and their words one space apart. -/
theorem normalSymbol_symbol (operator : Operator) :
    Platform.normalSymbol operator.symbol = operator.symbol := by
  have hall : ∀ x ∈ all, Platform.normalSymbol x.symbol = x.symbol := by decide +kernel
  exact hall operator operator.mem_all

end Operator

namespace Platform

variable {φ ε : Type}

/-! ### Lookup -/

/-- What a symbol stands for after a registration. -/
theorem comparator?_addComparator (platform : Platform φ ε) (symbol name : String)
    (factory : ComparatorFactory) :
    (platform.addComparator symbol factory).comparator? name
      = if normalSymbol symbol = normalSymbol name then some factory
        else platform.comparator? name := by
  have hinsert : (platform.addComparator symbol factory).comparator? name
      = if compare (normalSymbol symbol) (normalSymbol name) = .eq then some factory
        else platform.comparator? name := Std.TreeMap.getElem?_insert
  simp only [Std.LawfulEqCmp.compare_eq_iff_eq] at hinsert
  exact hinsert

end Platform

/-! ### Operators -/

/-- The registration gives the symbol of an operator to some comparator. -/
def Registration.TakesSymbol {φ ε : Type} : Registration φ ε → Prop
  | .comparator symbol _ => ∃ operator : Operator, Platform.normalSymbol symbol = operator.symbol
  | .action .. | .expression .. | .event _ | .standardComparators | .standardExpressions => False

namespace Platform

variable {φ ε : Type} {platform : Platform φ ε}

/-- The symbol of every operator stands for it. -/
def KnowsOperators (platform : Platform φ ε) : Prop :=
  ∀ operator : Operator, platform.comparator? operator.symbol = some operator.read

/-- An operator is known once it is registered, whether others are registered
after it or not. -/
theorem comparator?_foldl_symbol {operators : List Operator} {operator : Operator}
    (h : operator ∈ operators ∨ platform.comparator? operator.symbol = some operator.read) :
    (operators.foldl (fun platform operator =>
      platform.addComparator operator.symbol operator.read) platform).comparator? operator.symbol
        = some operator.read := by
  induction operators generalizing platform with
  | nil => exact h.resolve_left List.not_mem_nil
  | cons first rest ih =>
    refine ih ?_
    rw [comparator?_addComparator, first.normalSymbol_symbol, operator.normalSymbol_symbol]
    by_cases hsame : first = operator
    · rw [hsame, if_pos rfl]
      exact .inr rfl
    · -- Another operator has another symbol.
      rw [if_neg fun hsymbol => hsame (Operator.symbol_injective hsymbol)]
      rcases h with hmem | hknown
      · exact .inl ((List.mem_cons.1 hmem).resolve_left fun heq => hsame heq.symm)
      · exact .inr hknown

/-- The operators are known after they are registered. -/
theorem knowsOperators_addStandardComparators (platform : Platform φ ε) :
    platform.addStandardComparators.KnowsOperators :=
  fun operator => comparator?_foldl_symbol (.inl operator.mem_all)

/-- Other registrations leave the operators as they are. -/
theorem KnowsOperators.register (h : platform.KnowsOperators) {registration : Registration φ ε}
    (hother : ¬ registration.TakesSymbol) : (platform.register registration).KnowsOperators := by
  cases registration with
  | comparator symbol factory =>
    intro operator
    have hne : normalSymbol symbol ≠ normalSymbol operator.symbol := by
      rw [operator.normalSymbol_symbol]
      exact fun heq => hother ⟨operator, heq⟩
    rw [Platform.register, comparator?_addComparator, if_neg hne]
    exact h operator
  | standardComparators => exact knowsOperators_addStandardComparators platform
  | action => exact h
  | expression => exact h
  | event => exact h
  | standardExpressions => exact h

/-- A platform knows the operators that it is given, if none of their symbols
is registered later. -/
theorem knowsOperators (name : String) {before after : List (Registration φ ε)}
    (h : ∀ registration ∈ after, ¬ registration.TakesSymbol) :
    (ofRegistrations name (before ++ .standardComparators :: after)).KnowsOperators := by
  rw [ofRegistrations, List.foldl_append, List.foldl_cons]
  have hstandard : ((before.foldl register (ofName name)).register
      .standardComparators).KnowsOperators := knowsOperators_addStandardComparators _
  -- By induction on what is registered later.
  generalize Platform.register _ .standardComparators = platform at hstandard ⊢
  induction after generalizing platform with
  | nil => exact hstandard
  | cons registration after ih =>
    rw [List.forall_mem_cons] at h
    exact ih h.2 _ (hstandard.register h.1)

end Platform

end EventRules

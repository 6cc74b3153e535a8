import EventRules.Firing.Host
import EventRules.Script.Grammar.Predicate

/-!
# `EventRules.Script.Grammar.Action`: reading actions

An action is the name of a registered one with the words it is made
from, or a conditional

    IF condition THEN action [ELSE action]

The first `ELSE` after an `IF` belongs to it, whatever stands between
them. So a conditional inside the first branch has no `ELSE`, while the
one after `ELSE` may.
-/

set_option autoImplicit false

namespace EventRules

/-- The tokens of a conditional, by part. -/
structure Clauses where
  condition : List Token
  body : List Token
  otherwise : Option (List Token)
  deriving DecidableEq, Repr

namespace Clauses

/-- The branches that the first `ELSE` separates. -/
def branches (tokens : List Token) :
    Except SyntaxError (List Token × Option (List Token)) :=
  match Token.cutAt .else tokens with
  | none => .ok (tokens, none)
  | some (_, []) => .error ((SyntaxError.of .noActionAfterElse).near Keyword.else.text)
  | some (first, otherwise) => .ok (first, some otherwise)

/-- The parts of a conditional, of which the tokens follow the `IF`. -/
def ofTokens (tokens : List Token) : Except SyntaxError Clauses :=
  match branches tokens with
  | .error error => .error error
  | .ok (first, otherwise) =>
    match Token.cutAt .then first with
    | none => .error (.of .noThen)
    | some ([], _) => .error (.of .noConditionAfterIf)
    | some (_, []) => .error (.of .noActionAfterThen)
    | some (condition, body) => .ok ⟨condition, body, otherwise⟩

theorem length_of_branches {tokens first : List Token} {otherwise : Option (List Token)}
    (h : branches tokens = .ok (first, otherwise)) :
    first.length ≤ tokens.length ∧ ∀ rest ∈ otherwise, rest.length < tokens.length := by
  unfold branches at h
  split at h
  · obtain ⟨rfl, rfl⟩ := Prod.mk.inj (Except.ok.inj h)
    simp
  · simp at h
  · next _ hcut =>
    obtain ⟨rfl, rfl⟩ := Prod.mk.inj (Except.ok.inj h)
    have := Token.length_of_cutAt hcut
    simp only [Option.mem_def, Option.some.injEq, forall_eq']
    omega

/-- The parts of a conditional are shorter than the whole. -/
theorem length_of_ofTokens {tokens : List Token} {clauses : Clauses}
    (h : ofTokens tokens = .ok clauses) :
    clauses.body.length < tokens.length
      ∧ ∀ rest ∈ clauses.otherwise, rest.length < tokens.length := by
  unfold ofTokens at h
  split at h
  · simp at h
  · next hbranches =>
    have hlength := length_of_branches hbranches
    split at h
    · simp at h
    · simp at h
    · simp at h
    · next _ _ hcut =>
      have := Token.length_of_cutAt hcut
      obtain rfl := Except.ok.inj h
      exact ⟨by simp only; omega, hlength.2⟩

end Clauses

namespace Action

variable {φ α ε : Type} [Host φ α ε]

/-- The action of a name and the words after it. -/
def leafOfTokens (platform : Platform φ ε) (name : String) (args : List Token) :
    Except SyntaxError (Action α) :=
  match platform.action? name with
  | none => .error ((SyntaxError.of (.unknownAction name)).near name)
  | some factory =>
    match Host.build factory platform (Token.texts args) with
    | .ok plugin => .ok (.ofPlugin name args plugin)
    | .error error => .error (error.near name)

/-- The action that the tokens make. Of several faults in a conditional
the one in its condition comes first, then the one in its first
branch. -/
def ofTokens (platform : Platform φ ε) (tokens : List Token) :
    Except SyntaxError (Action α) :=
  match tokens with
  | [] => .error (.of .noAction)
  | head :: rest =>
    if head.isKeyword .if then
      match _h : Clauses.ofTokens rest with
      | .error error => .error error
      | .ok ⟨condition, body, none⟩ => do
        let condition ← Predicate.listOfTokens platform condition
        let body ← ofTokens platform body
        return .ifThen condition body
      | .ok ⟨condition, body, some otherwise⟩ => do
        let condition ← Predicate.listOfTokens platform condition
        let body ← ofTokens platform body
        let otherwise ← ofTokens platform otherwise
        return .ifThenElse condition body otherwise
    else leafOfTokens platform head.text rest
termination_by tokens.length
decreasing_by
  all_goals
    have hlength := Clauses.length_of_ofTokens (by assumption)
    simp only [List.length_cons]
    simp only [Option.mem_def, Option.some.injEq, forall_eq', reduceCtorEq] at hlength
    omega

/-- The action on a line, or on several: blank lines do not matter. -/
def read (platform : Platform φ ε) (tokens : List Token) : Except SyntaxError (Action α) :=
  ofTokens platform (Token.content tokens)

end Action

end EventRules

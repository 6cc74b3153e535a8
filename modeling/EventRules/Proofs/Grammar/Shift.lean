import EventRules.Proofs.Grammar.Moved
import EventRules.Proofs.Script.Lines

/-!
# `EventRules.Proofs.Grammar.Shift`: reading tokens further down

Tokens further down are tokens on other lines, and their rules have the
other lines (`Rule.listOfBlocks_relocate`). When rules come after others,
their numbers are higher as well. A number is what the reader of blocks
gives to an error, so it plays no other part:

* `Rule.listOfBlocks_renumber`: blocks with later numbers, under
  `Platform.Unplaced`. A factory may not put its errors in a rule.
* `Rule.listOfBlocks_shift`: blocks further down, with later numbers.
-/

set_option autoImplicit false

namespace EventRules

/-! ### What moves -/

/-- The action with its words as many lines further down. -/
def Action.shift {α : Type} (lines : Nat) : Action α → Action α
  | leaf name args plugin => leaf name (args.map (Token.shift lines)) plugin
  | ifThen condition body => ifThen condition (body.shift lines)
  | ifThenElse condition body otherwise =>
    ifThenElse condition (body.shift lines) (otherwise.shift lines)

/-- The rule as many lines further down. -/
def Rule.shift {α : Type} (lines : Nat) (rule : Rule α) : Rule α :=
  { rule with action := rule.action.shift lines, line := rule.line.map (· + lines) }

/-- The error as many rules and lines further down. -/
def SyntaxError.shift (rules lines : Nat) (error : SyntaxError) : SyntaxError :=
  { error with rule := error.rule.map (· + rules), line := error.line.map (· + lines) }

variable {φ α ε : Type} {lines : Nat}

/-- Moving down is moving. -/
theorem Token.shift_eq_relocate (lines : Nat) : shift lines = relocate (· + lines) :=
  rfl

theorem Action.shift_eq_relocate (action : Action α) :
    action.shift lines = action.relocate (· + lines) := by
  induction action with
  | leaf name args plugin => rfl
  | ifThen condition body ih => rw [shift, relocate, ih]
  | ifThenElse condition body otherwise ih ih' => rw [shift, relocate, ih, ih']

theorem Rule.shift_eq_relocate (rule : Rule α) :
    rule.shift lines = rule.relocate (· + lines) := by
  rw [shift, relocate, Action.shift_eq_relocate]

/-- The blocks of tokens further down. -/
theorem Block.split_shift (tokens : List Token) :
    split (tokens.map (Token.shift lines)) = (split tokens).map (List.map (Token.shift lines)) := by
  rw [Token.shift_eq_relocate]
  exact split_relocate tokens

/-! ### Rules -/

namespace Rule

variable [Host φ α ε]

/-- Blocks of which the numbers begin later. -/
theorem listOfBlocks_renumber {platform : Platform φ ε} (h : platform.Unplaced)
    (number rules : Nat) (blocks : List (List Token)) :
    listOfBlocks (α := α) platform (number + rules) blocks
      = match listOfBlocks platform number blocks with
        | .error error => .error { error with rule := error.rule.map (· + rules) }
        | .ok found => .ok found := by
  induction blocks generalizing number with
  | nil => rfl
  | cons block rest ih =>
    have hnumber : number + rules + 1 = number + 1 + rules := by omega
    rw [listOfBlocks, listOfBlocks, hnumber, ih (number + 1)]
    cases hblock : ofBlock (α := α) platform block with
    | error error =>
      -- The block's error has no number yet, so it is only given this one.
      obtain ⟨hrule, -⟩ := ofBlock_error h hblock
      obtain ⟨fault, rule, line, word⟩ := error
      cases hrule
      simp [SyntaxError.inRule]
    | ok rule =>
      cases listOfBlocks (α := α) platform (number + 1) rest <;> rfl

/-- The rules or the error of blocks further down, of which the numbers
begin later too. -/
theorem listOfBlocks_shift {platform : Platform φ ε} (h : platform.Unplaced) (number rules : Nat)
    {blocks : List (List Token)} (hne : ∀ block ∈ blocks, block ≠ []) :
    listOfBlocks (α := α) platform (number + rules) (blocks.map (List.map (Token.shift lines)))
      = match listOfBlocks platform number blocks with
        | .error error => .error (error.shift rules lines)
        | .ok found => .ok (found.map (shift lines)) := by
  have hmove : Function.Injective (· + lines) := fun _ _ => Nat.add_right_cancel
  have hshift : shift (α := α) lines = relocate (· + lines) := funext shift_eq_relocate
  rw [listOfBlocks_renumber h, Token.shift_eq_relocate,
    listOfBlocks_relocate h.unlined hmove number hne, hshift]
  cases listOfBlocks (α := α) platform number blocks <;> rfl

end Rule

end EventRules

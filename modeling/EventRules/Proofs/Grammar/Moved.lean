import EventRules.Proofs.Grammar.Faults
import EventRules.Proofs.Grammar.Relocate

/-!
# `EventRules.Proofs.Grammar.Moved`: rules on other lines

Lines only divide a block, by comparing them with one another. What the
parts of a block are read as does not depend on lines at all
(`Action.ofTokens_relocate`). So when tokens move to other lines, and no
two lines become one, the lines in rules and errors move along, and
nothing else changes:

* `Block.split_relocate`, `Block.ofTokens_relocate`: the division into
  blocks, and that of a block.
* `Rule.ofBlock_relocate`: a block, under `Platform.Unlined`. A factory
  that put an error on a line would put it on one of its own choice.
* `Rule.listOfBlocks_relocate`: several blocks.
-/

set_option autoImplicit false

namespace EventRules

/-! ### What moves -/

/-- The rule on other lines. -/
def Rule.relocate {α : Type} (move : Nat → Nat) (rule : Rule α) : Rule α :=
  { rule with action := rule.action.relocate move, line := rule.line.map move }

/-- The rules on other lines. -/
def Ruleset.relocate {α : Type} (move : Nat → Nat) (ruleset : Ruleset α) : Ruleset α :=
  ⟨ruleset.rules.map (Rule.relocate move)⟩

/-- The error on another line. -/
def SyntaxError.relocate (move : Nat → Nat) (error : SyntaxError) : SyntaxError :=
  { error with line := error.line.map move }

variable {φ α ε : Type} {move : Nat → Nat}

/-- A line that is added moves along. -/
theorem SyntaxError.atLine_relocate {error : SyntaxError} (h : error.Unlined) (line : Nat) :
    error.atLine (move line) = (error.atLine line).relocate move := by
  obtain ⟨fault, rule, line', word⟩ := error
  have hline : line' = none := h
  rw [hline]
  rfl

/-! ### Blocks -/

namespace Block

/-- The blocks of tokens that are changed, each token being a run of blank
lines if it was one. -/
theorem split_map (change : Token → Token)
    (hchange : ∀ token, (change token).isEmptyLine = token.isEmptyLine) (tokens : List Token) :
    split (tokens.map change) = (split tokens).map (List.map change) := by
  have hsplit := splitOnP_map change (·.isEmptyLine) (·.isEmptyLine) hchange tokens
  have hempty : (fun part => !part.isEmpty) ∘ List.map change = fun part => !part.isEmpty := by
    funext part
    cases part <;> rfl
  rw [split, split, hsplit, List.filter_map, hempty]

/-- The blocks of tokens on other lines. -/
theorem split_relocate (tokens : List Token) :
    split (tokens.map (Token.relocate move))
      = (split tokens).map (List.map (Token.relocate move)) :=
  split_map (Token.relocate move) (fun _ => rfl) tokens

/-- The last line moves along, and so it divides the block in the same
place. -/
theorem ofTokens_relocate (hmove : Function.Injective move) {tokens : List Token}
    (hne : tokens ≠ []) :
    ofTokens (tokens.map (Token.relocate move))
      = ⟨(ofTokens tokens).action.map (Token.relocate move),
          (ofTokens tokens).onLine.map (Token.relocate move), move (ofTokens tokens).line⟩ := by
  have hlast : tokens.getLast? = some (tokens.getLast hne) := List.getLast?_eq_some_getLast hne
  have hmoved : (tokens.map (Token.relocate move)).getLast?
      = some ((tokens.getLast hne).relocate move) := by
    rw [List.getLast?_map, hlast]
    rfl
  -- Two lines differ when they do after the move.
  have hline : (fun token : Token =>
        decide (token.line ≠ ((tokens.getLast hne).relocate move).line)) ∘ Token.relocate move
      = fun token => decide (token.line ≠ (tokens.getLast hne).line) := by
    funext token
    rw [Function.comp, decide_eq_decide]
    exact not_congr hmove.eq_iff
  rw [ofTokens_of_getLast? hlast, ofTokens_of_getLast? hmoved, List.takeWhile_map,
    List.dropWhile_map, hline]
  rfl

end Block

theorem eventClause_relocate (tokens : List Token) :
    eventClause (tokens.map (Token.relocate move))
      = ((eventClause tokens).1.map (Token.relocate move),
          (eventClause tokens).2.map (List.map (Token.relocate move))) := by
  rw [eventClause, eventClause, Token.cutAt_relocate]
  cases Token.cutAt .with tokens <;> rfl

/-! ### Rules -/

namespace Rule

variable [Host φ α ε]

theorem predicatesOfTokens_relocate (platform : Platform φ ε) (tokens : Option (List Token)) :
    predicatesOfTokens platform (tokens.map (List.map (Token.relocate move)))
      = predicatesOfTokens platform tokens := by
  cases tokens with
  | none => rfl
  | some tokens =>
    cases tokens with
    | nil => rfl
    | cons token rest => exact Predicate.listOfTokens_relocate platform (token :: rest)

/-- What triggers a rule does not depend on its lines. -/
theorem triggerOfTokens_relocate (platform : Platform φ ε) (action onLine : List Token)
    (line line' : Nat) :
    triggerOfTokens platform
        ⟨action.map (Token.relocate move), onLine.map (Token.relocate move), line'⟩
      = triggerOfTokens platform ⟨action, onLine, line⟩ := by
  rw [triggerOfTokens]
  cases onLine with
  | nil => rfl
  | cons keyword rest =>
    simp only [List.map_cons, Token.isKeyword_relocate, List.isEmpty_map, eventClause_relocate,
      predicatesOfTokens_relocate, Token.phrase_relocate]
    rfl

/-- A rule or an error on other lines. -/
theorem ofBlock_relocate {platform : Platform φ ε} (h : platform.Unlined)
    (hmove : Function.Injective move) {tokens : List Token} (hne : tokens ≠ []) :
    ofBlock (α := α) platform (tokens.map (Token.relocate move))
      = match ofBlock platform tokens with
        | .error error => .error (error.relocate move)
        | .ok rule => .ok (rule.relocate move) := by
  simp only [ofBlock]
  simp only [Block.ofTokens_relocate hmove hne]
  rw [triggerOfTokens_relocate platform _ _ (Block.ofTokens tokens).line]
  cases htrigger : triggerOfTokens platform (Block.ofTokens tokens) with
  | error error =>
    have herror : error.Unlined := triggerOfTokens_failsWith h _ error htrigger
    simp only [SyntaxError.atLine_relocate herror]
  | ok trigger =>
    -- An error of the action is placed on its first line, and there is
    -- one, since the trigger was read.
    obtain ⟨_, _, -, -, hne, -⟩ := triggerOfTokens_eq_ok_iff.1 htrigger
    obtain ⟨first, others, hfirst⟩ := List.exists_cons_of_ne_nil hne
    simp only [Action.ofTokens_relocate]
    cases haction : Action.ofTokens (α := α) platform (Block.ofTokens tokens).action with
    | ok action => rfl
    | error error =>
      have herror : error.Unlined := Action.ofTokens_failsWith h _ error haction
      simp only [hfirst, List.map_cons, List.head?_cons, Option.elim_some, Except.map]
      exact congrArg Except.error (SyntaxError.atLine_relocate herror first.line)

/-- The rules or the error of blocks on other lines. -/
theorem listOfBlocks_relocate {platform : Platform φ ε} (h : platform.Unlined)
    (hmove : Function.Injective move) (number : Nat) {blocks : List (List Token)}
    (hne : ∀ block ∈ blocks, block ≠ []) :
    listOfBlocks (α := α) platform number (blocks.map (List.map (Token.relocate move)))
      = match listOfBlocks platform number blocks with
        | .error error => .error (error.relocate move)
        | .ok found => .ok (found.map (relocate move)) := by
  induction blocks generalizing number with
  | nil => rfl
  | cons block rest ih =>
    rw [List.forall_mem_cons] at hne
    rw [List.map_cons, listOfBlocks, listOfBlocks, ofBlock_relocate h hmove hne.1,
      ih (number + 1) hne.2]
    cases ofBlock (α := α) platform block with
    | error error => rfl
    | ok rule => cases listOfBlocks (α := α) platform (number + 1) rest <;> rfl

end Rule

/-- Tokens of which the blocks are those of others, on other lines. -/
theorem Ruleset.ofTokens_of_split_relocate [Host φ α ε] {platform : Platform φ ε}
    (h : platform.Unlined) (hmove : Function.Injective move) {tokens others : List Token}
    (hsplit : Block.split tokens = (Block.split others).map (List.map (Token.relocate move))) :
    ofTokens (α := α) platform tokens
      = match ofTokens platform others with
        | .error error => .error (error.relocate move)
        | .ok ruleset => .ok (ruleset.relocate move) := by
  have hne : ∀ block ∈ Block.split others, block ≠ [] :=
    fun _ hblock => (Block.mem_split hblock).1
  rw [ofTokens, ofTokens, hsplit, Rule.listOfBlocks_relocate h hmove 1 hne]
  cases Rule.listOfBlocks (α := α) platform 1 (Block.split others) <;> rfl

end EventRules

import EventRules.Proofs.Grammar.Ruleset

/-!
# `EventRules.Proofs.Grammar.FirstFault`: the rule that an error points at

A script is read block by block up to the first one that is no rule. The
error of that block is the error of the script, with the number of the
block and a line of it. Two lines come into question:

* the line of the block's last token, if what stands there triggers no
  rule: there is no `ON`, nothing above it, no event, or a condition
  that cannot be read;
* the line of its first token, if the last line is as it should be and
  the action above it is not.

`Rule.ofBlock_error_line` says which of the two it is, and
`Rule.listOfBlocks_error_first` which block. `Ruleset.PointsAt` puts both
together, and `Ruleset.ofScript_error_pointsAt` is the theorem for
scripts. A factory that places its errors itself would override both, so
`Platform.Unplaced` is assumed.
-/

set_option autoImplicit false

namespace EventRules

variable {φ α ε : Type} [Host φ α ε]

namespace Rule

/-- The first block that is no rule, and its error with the number of the
block. -/
theorem listOfBlocks_error_first {platform : Platform φ ε} {number : Nat}
    {blocks : List (List Token)} {error : SyntaxError}
    (h : listOfBlocks (α := α) platform number blocks = .error error) :
    ∃ before block after inner, blocks = before ++ block :: after
      ∧ (∀ other ∈ before, ∃ rule : Rule α, ofBlock platform other = .ok rule)
      ∧ ofBlock (α := α) platform block = .error inner
      ∧ error = inner.inRule (number + before.length) := by
  induction blocks generalizing number with
  | nil => cases h
  | cons block rest ih =>
    rw [listOfBlocks] at h
    cases hblock : ofBlock (α := α) platform block with
    | error inner =>
      rw [hblock] at h
      cases h
      refine ⟨[], block, rest, inner, rfl, ?_, hblock, rfl⟩
      intro other hother
      cases hother
    | ok rule =>
      rw [hblock] at h
      cases hrest : listOfBlocks (α := α) platform (number + 1) rest with
      | ok rules =>
        simp only [hrest] at h
        cases h
      | error later =>
        simp only [hrest] at h
        cases h
        obtain ⟨before, found, after, inner, rfl, hbefore, hinner, rfl⟩ := ih hrest
        refine ⟨block :: before, found, after, inner, rfl, ?_, hinner, ?_⟩
        · intro other hother
          rcases List.mem_cons.1 hother with rfl | hmem
          · exact ⟨rule, hblock⟩
          · exact hbefore other hmem
        · have hnumber : number + 1 + before.length = number + (block :: before).length := by
            rw [List.length_cons]
            omega
          rw [hnumber]

/-- An error of a block stands on the line of its last token, unless that
line triggers a rule. Then the action is at fault, and the error stands
on the line of the first token. -/
theorem ofBlock_error_line {platform : Platform φ ε} (hplatform : platform.Unplaced)
    {tokens : List Token} (hne : tokens ≠ []) (hsorted : tokens.Pairwise (·.line ≤ ·.line))
    {error : SyntaxError} (h : ofBlock (α := α) platform tokens = .error error) :
    ((¬ ∃ body event predicates line, Triggers platform tokens body event predicates line) →
        ∃ last, tokens.getLast? = some last ∧ error.line = some last.line)
      ∧ ∀ body event predicates line, Triggers platform tokens body event predicates line →
          (∃ inner, Action.ofTokens (α := α) platform body = .error inner)
            ∧ ∃ first, tokens.head? = some first ∧ error.line = some first.line := by
  have hiff := @triggerOfTokens_eq_ok_iff_triggers φ ε platform tokens hne hsorted
  have hlast : tokens.getLast? = some (tokens.getLast hne) := List.getLast?_eq_some_getLast hne
  have hline : (Block.ofTokens tokens).line = (tokens.getLast hne).line := by
    rw [Block.ofTokens_of_getLast? hlast]
  rw [ofBlock] at h
  cases htrigger : triggerOfTokens platform (Block.ofTokens tokens) with
  | error inner =>
    have hinner : inner.Unplaced :=
      triggerOfTokens_failsWith hplatform.refusesWith _ inner htrigger
    simp only [htrigger] at h
    cases h
    constructor
    · intro _
      refine ⟨_, hlast, ?_⟩
      show inner.line.or (some (Block.ofTokens tokens).line) = _
      rw [hinner.line_eq, hline]
      rfl
    · -- The reader of last lines would have found the trigger.
      intro body event predicates line htriggers
      obtain ⟨hbody, hline'⟩ := htriggers.ofTokens_eq
      rw [← hbody, ← hline'] at htriggers
      have hread := hiff.2 htriggers
      rw [htrigger] at hread
      cases hread
  | ok trigger =>
    have htriggers := hiff.1 htrigger
    constructor
    · intro hnone
      exact absurd ⟨_, _, _, _, htriggers⟩ hnone
    · intro body event predicates line hother
      obtain ⟨hbody, -⟩ := hother.ofTokens_eq
      cases haction : Action.ofTokens (α := α) platform (Block.ofTokens tokens).action with
      | ok action =>
        simp only [htrigger, haction] at h
        cases h
      | error inner =>
        have hinner : inner.Unplaced :=
          Action.ofTokens_failsWith hplatform.refusesWith _ inner haction
        simp only [htrigger, haction] at h
        have hhead := htriggers.ends.1
        -- The first token of the block is the first one of the action.
        cases hfirst : tokens.head? with
        | none => exact absurd (List.head?_eq_none_iff.1 hfirst) hne
        | some first =>
          rw [← hhead, hfirst] at h
          cases h
          rw [hbody] at haction
          refine ⟨⟨inner, haction⟩, first, rfl, ?_⟩
          show inner.line.or (some first.line) = some first.line
          rw [hinner.line_eq]
          rfl

end Rule

namespace Ruleset

/-- A block on its own is a ruleset of one rule. -/
theorem ofTokens_of_solid {platform : Platform φ ε} {block : List Token} (hne : block ≠ [])
    (hsolid : Block.Solid block) :
    ofTokens (α := α) platform block
      = match Rule.ofBlock platform block with
        | .error error => .error (error.inRule 1)
        | .ok rule => .ok ⟨[rule]⟩ := by
  rw [ofTokens, Block.split_of_solid_of_ne_nil hsolid hne, Rule.listOfBlocks]
  cases Rule.ofBlock (α := α) platform block <;> rfl

/-- The error of tokens points at the block that is no rule and has only
rules before it. -/
structure PointsAt (platform : Platform φ ε) (tokens : List Token) (error : SyntaxError)
    (before : List (List Token)) (block : List Token) : Prop where
  runs : ∃ after, Block.Runs tokens (before ++ block :: after)
  /-- The blocks before it can be read each on its own. -/
  before_ok : ∀ other ∈ before, ∃ ruleset : Ruleset α, ofTokens platform other = .ok ruleset
  /-- The block on its own has the same fault, near the same word. -/
  alone : ∃ alone, ofTokens (α := α) platform block = .error alone
    ∧ error.fault = alone.fault ∧ error.word = alone.word
  /-- Blocks are counted from 1. -/
  rule_eq : error.rule = some (before.length + 1)
  /-- A last line that triggers no rule is at fault. -/
  line_of_last :
    (¬ ∃ body event predicates line,
      Rule.Triggers platform block body event predicates line) →
    ∃ last, block.getLast? = some last ∧ error.line = some last.line
  /-- Below an action that is at fault the last line triggers a rule. -/
  line_of_first : ∀ body event predicates line,
    Rule.Triggers platform block body event predicates line →
    (∃ inner, Action.ofTokens (α := α) platform body = .error inner)
      ∧ ∃ first, block.head? = some first ∧ error.line = some first.line

/-- An error of a script points at the first block that is no rule, if no
factory places its errors. -/
theorem ofScript_error_pointsAt {platform : Platform φ ε} (hplatform : platform.Unplaced)
    {script : String} {error : SyntaxError}
    (h : ofScript (α := α) platform script = .error error) :
    ∃ before block, PointsAt platform (tokenize script) error before block := by
  have hlist : Rule.listOfBlocks (α := α) platform 1 (Block.split (tokenize script))
      = .error error := by
    rw [ofScript, ofTokens] at h
    cases hrules : Rule.listOfBlocks (α := α) platform 1 (Block.split (tokenize script)) with
    | ok rules =>
      rw [hrules] at h
      cases h
    | error inner =>
      rw [hrules] at h
      cases h
      rfl
  obtain ⟨before, block, after, inner, hblocks, hbefore, hblock, rfl⟩ :=
    Rule.listOfBlocks_error_first hlist
  have hmem : ∀ other ∈ before ++ block :: after, other ≠ [] ∧ Block.Solid other
      ∧ other.Sublist (tokenize script) := by
    rw [← hblocks]
    intro other hother
    exact Block.mem_split hother
  obtain ⟨hne, hsolid, hsub⟩ := hmem block (by simp)
  have hsorted : block.Pairwise (·.line ≤ ·.line) := (tokenize_sorted script).sublist hsub
  obtain ⟨hlast, hfirst⟩ := Rule.ofBlock_error_line hplatform hne hsorted hblock
  obtain ⟨hrule, -⟩ := Rule.ofBlock_error hplatform hblock
  refine ⟨before, block, ⟨after, Block.runs_iff.2 hblocks⟩, ?_, ?_, ?_, hlast, hfirst⟩
  · intro other hother
    obtain ⟨hne', hsolid', -⟩ := hmem other (List.mem_append_left _ hother)
    obtain ⟨rule, hok⟩ := hbefore other hother
    rw [ofTokens_of_solid hne' hsolid', hok]
    exact ⟨⟨[rule]⟩, rfl⟩
  · rw [ofTokens_of_solid hne hsolid, hblock]
    exact ⟨_, rfl, rfl, rfl⟩
  · -- The block's error has no number of its own.
    show inner.rule.or (some (1 + before.length)) = some (before.length + 1)
    rw [hrule, Nat.add_comm]
    rfl

/-- The second of three blocks has an unknown action and a number that is
none, and the third one has no `ON`. The number is reported. -/
theorem ofScript_error_pointsAt_second :
    Echo.platform.Unplaced
      ∧ ofScript Echo.platform
          "ECHO x\nON Gift\n\nJUMP y\nON Gift WITH amount > lots\n\nECHO z"
        = .error ⟨.noNumber, some 2, some 5, some "lots"⟩
      ∧ ∃ first block,
        PointsAt Echo.platform
          (tokenize "ECHO x\nON Gift\n\nJUMP y\nON Gift WITH amount > lots\n\nECHO z")
          ⟨.noNumber, some 2, some 5, some "lots"⟩ [first] block := by
  have herror : ofScript Echo.platform
      "ECHO x\nON Gift\n\nJUMP y\nON Gift WITH amount > lots\n\nECHO z"
      = .error ⟨.noNumber, some 2, some 5, some "lots"⟩ := by
    decide +kernel
  refine ⟨Echo.unplaced, herror, ?_⟩
  obtain ⟨before, block, hpoints⟩ := ofScript_error_pointsAt Echo.unplaced herror
  have hlength : before.length = 1 := by
    have hrule := Option.some.inj hpoints.rule_eq
    omega
  obtain ⟨first, rfl⟩ := List.length_eq_one_iff.1 hlength
  exact ⟨first, block, hpoints⟩

end Ruleset

end EventRules

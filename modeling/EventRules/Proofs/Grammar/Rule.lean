import EventRules.Proofs.Grammar.Action
import EventRules.Script.Grammar.Rule
import Mathlib.Data.List.Forall2

/-!
# `EventRules.Proofs.Grammar.Rule`: blocks and the rules they make

A script is read block by block. This module says what a block is and
what makes one a rule:

* `Block.split_append`: the blocks before and after a run of blank lines
  are found apart. `Block.split_induction` is the induction on a script
  block by block that goes with it.
* `Rule.ofBlock_eq_ok_iff`: the conditions under which a block is a rule,
  and the rule.
* `Rule.listOfBlocks_eq_ok_iff` and `Rule.listOfBlocks_append`: blocks
  are read one by one, and in two parts as well as in one.
-/

set_option autoImplicit false

namespace EventRules

/-! ### Blocks -/

namespace Block

/-- No token is a run of blank lines. -/
def Solid (tokens : List Token) : Prop :=
  ∀ token ∈ tokens, token.isEmptyLine = false

theorem solid_nil : Solid [] :=
  fun _ h => (List.not_mem_nil h).elim

theorem ne_nil_of_mem {part block : List Token} (h : block ∈ [part].filter (!·.isEmpty)) :
    block = part ∧ block ≠ [] := by
  rw [List.mem_filter, List.mem_singleton] at h
  obtain ⟨rfl, hne⟩ := h
  refine ⟨rfl, ?_⟩
  rintro rfl
  cases hne

theorem split_of_solid {part : List Token} (h : Solid part) :
    split part = [part].filter (!·.isEmpty) := by
  rw [split, List.splitOnP_eq_singleton h]

/-- The blocks around a run of blank lines. -/
theorem split_append {before after : List Token} {blank : Token}
    (h : blank.isEmptyLine) : split (before ++ blank :: after) = split before ++ split after := by
  rw [split, List.splitOnP_append_cons before after h, List.filter_append]
  rfl

/-- Blank lines at the start are part of no block. -/
theorem split_cons {blank : Token} {after : List Token} (h : blank.isEmptyLine) :
    split (blank :: after) = split after :=
  @split_append [] after blank h

/-- Induction on a script: on its last block, and on a block with a run
of blank lines and more blocks after it. -/
@[elab_as_elim]
theorem split_induction {motive : List Token → Prop}
    (last : ∀ part, Solid part → motive part)
    (more : ∀ part blank rest, Solid part → blank.isEmptyLine → motive rest →
      motive (part ++ blank :: rest))
    (tokens : List Token) : motive tokens := by
  -- The tokens of the first block that were passed by are kept in front.
  have hpart : ∀ part, Solid part → motive (part ++ tokens) := by
    induction tokens with
    | nil =>
      intro part hsolid
      rw [List.append_nil]
      exact last part hsolid
    | cons token rest ih =>
      intro part hsolid
      by_cases hblank : token.isEmptyLine
      · exact more part token rest hsolid hblank (ih [] solid_nil)
      · have hlonger : Solid (part ++ [token]) := by
          intro other hother
          rcases List.mem_append.1 hother with h | h
          · exact hsolid other h
          · rw [List.mem_singleton.1 h]
            exact Bool.eq_false_iff.2 hblank
        have hmotive := ih (part ++ [token]) hlonger
        rw [List.append_assoc] at hmotive
        exact hmotive
  exact hpart [] solid_nil

/-- A block is a part of the script with tokens and without blank
lines. -/
theorem mem_split {tokens block : List Token} (h : block ∈ split tokens) :
    block ≠ [] ∧ Solid block ∧ block.Sublist tokens := by
  induction tokens using split_induction with
  | last part hsolid =>
    rw [split_of_solid hsolid] at h
    obtain ⟨rfl, hne⟩ := ne_nil_of_mem h
    exact ⟨hne, hsolid, List.Sublist.refl _⟩
  | more part blank rest hsolid hblank ih =>
    rw [split_append hblank, split_of_solid hsolid, List.mem_append] at h
    rcases h with h | h
    · obtain ⟨rfl, hne⟩ := ne_nil_of_mem h
      exact ⟨hne, hsolid, List.sublist_append_left _ _⟩
    · obtain ⟨hne, hrest, hsub⟩ := ih h
      have hlater : rest.Sublist (part ++ blank :: rest) :=
        (List.sublist_cons_self _ _).trans (List.sublist_append_right _ _)
      exact ⟨hne, hrest, hsub.trans hlater⟩

/-- A block is divided at the first token on the line of its last
one. -/
theorem ofTokens_of_getLast? {tokens : List Token} {last : Token}
    (h : tokens.getLast? = some last) :
    ofTokens tokens = ⟨tokens.takeWhile (fun token => decide (token.line ≠ last.line)),
      tokens.dropWhile (fun token => decide (token.line ≠ last.line)), last.line⟩ := by
  have hline : (tokens.getLast?.map (·.line)).getD 0 = last.line := by
    rw [h]
    rfl
  rw [ofTokens]
  simp only [hline]

/-- No token stands below the last one. -/
theorem line_le_of_mem {tokens : List Token} (hsorted : tokens.Pairwise (·.line ≤ ·.line))
    {last : Token} (hlast : tokens.getLast? = some last) :
    ∀ token ∈ tokens, token.line ≤ last.line := by
  obtain ⟨before, rfl⟩ := List.getLast?_eq_some_iff.1 hlast
  intro token htoken
  rcases List.mem_append.1 htoken with h | h
  · exact (List.pairwise_append.1 hsorted).2.2 token h last List.mem_cons_self
  · have heq : token = last := List.mem_singleton.1 h
    exact Nat.le_of_eq (congrArg Token.line heq)

/-- From the first token of the last line on, all tokens are on it. -/
theorem line_of_mem_dropWhile {tokens : List Token} {line : Nat}
    (hsorted : tokens.Pairwise (·.line ≤ ·.line)) (hle : ∀ token ∈ tokens, token.line ≤ line) :
    ∀ token ∈ tokens.dropWhile (fun token => decide (token.line ≠ line)), token.line = line := by
  induction tokens with
  | nil =>
    intro token htoken
    cases htoken
  | cons first rest ih =>
    rw [List.pairwise_cons] at hsorted
    rw [List.forall_mem_cons] at hle
    by_cases hline : first.line = line
    · rw [List.dropWhile_cons_of_neg (by simpa using hline)]
      intro token htoken
      rcases List.mem_cons.1 htoken with rfl | hrest
      · exact hline
      · have hge : first.line ≤ token.line := hsorted.1 token hrest
        have hupper : token.line ≤ line := hle.2 token hrest
        omega
    · rw [List.dropWhile_cons_of_pos (by simpa using hline)]
      exact ih hsorted.2 hle.2

end Block

/-! ### One rule -/

namespace Rule

variable {φ α ε : Type} [Host φ α ε]

/-- The last line says what triggers a rule when it begins with `ON`,
names an event and has a predicate after a `WITH`. There has to be an
action too. -/
theorem triggerOfTokens_eq_ok_iff {platform : Platform φ ε} {block : Block}
    {trigger : String × List Predicate} :
    triggerOfTokens platform block = .ok trigger
      ↔ ∃ keyword rest, block.onLine = keyword :: rest ∧ keyword.isKeyword .on
          ∧ block.action ≠ [] ∧ (eventClause rest).1 ≠ []
          ∧ predicatesOfTokens platform (eventClause rest).2 = .ok trigger.2
          ∧ trigger.1 = Token.phrase (eventClause rest).1 := by
  rw [triggerOfTokens]
  -- The refusals in the order of the reader: no `ON`, no action, no
  -- event, a predicate that cannot be read.
  cases honLine : block.onLine with
  | nil => simp
  | cons keyword rest =>
    simp only [List.cons.injEq]
    by_cases hkey : keyword.isKeyword .on
    · by_cases haction : block.action = []
      · simp [hkey, haction]
      · by_cases hevent : (eventClause rest).1 = []
        · simp [hkey, haction, hevent]
        · cases hpredicates : predicatesOfTokens platform (eventClause rest).2 with
          | error error =>
            simp [hkey, haction, hevent, hpredicates, Except.map]
          | ok predicates =>
            obtain ⟨event, found⟩ := trigger
            simp only [hkey, haction, hevent, Except.map, List.isEmpty_iff,
              Bool.not_true, Bool.false_eq_true, if_false, Except.ok.injEq, Prod.mk.injEq]
            constructor
            · rintro ⟨rfl, rfl⟩
              exact ⟨keyword, rest, ⟨rfl, rfl⟩, hkey, haction, hevent, hpredicates, rfl⟩
            · rintro ⟨_, _, ⟨rfl, rfl⟩, -, -, -, h, rfl⟩
              rw [hpredicates] at h
              exact ⟨rfl, Except.ok.inj h⟩
    · simp [hkey]

/-- A block is a rule when its last line is a trigger and the lines
before it are an action. -/
theorem ofBlock_eq_ok_iff {platform : Platform φ ε} {tokens : List Token} {rule : Rule α} :
    ofBlock platform tokens = .ok rule
      ↔ triggerOfTokens platform (Block.ofTokens tokens) = .ok (rule.event, rule.predicates)
          ∧ Action.ofTokens platform (Block.ofTokens tokens).action = .ok rule.action
          ∧ rule.line = some (Block.ofTokens tokens).line := by
  -- The trigger is read before the action, whose error comes second.
  unfold ofBlock
  cases htrigger : triggerOfTokens platform (Block.ofTokens tokens) with
  | error error => simp [htrigger]
  | ok trigger =>
    obtain ⟨event, predicates⟩ := trigger
    cases haction : Action.ofTokens (α := α) platform (Block.ofTokens tokens).action with
    | error error => simp [htrigger, haction]
    | ok action =>
      obtain ⟨event', action', predicates', line'⟩ := rule
      simp only [htrigger, haction, Except.ok.injEq, Rule.mk.injEq, Prod.mk.injEq]
      constructor
      · rintro ⟨rfl, rfl, rfl, rfl⟩
        exact ⟨⟨rfl, rfl⟩, rfl, rfl⟩
      · rintro ⟨⟨rfl, rfl⟩, rfl, rfl⟩
        exact ⟨rfl, rfl, rfl, rfl⟩

/-! ### Rules one after the other -/

/-- Blocks make rules when each of them makes one. -/
theorem listOfBlocks_eq_ok_iff {platform : Platform φ ε} {number : Nat}
    {blocks : List (List Token)} {rules : List (Rule α)} :
    listOfBlocks platform number blocks = .ok rules
      ↔ List.Forall₂ (fun block rule => ofBlock platform block = .ok rule) blocks rules := by
  induction blocks generalizing number rules with
  | nil =>
    rw [listOfBlocks, List.forall₂_nil_left_iff, Except.ok.injEq]
    exact eq_comm
  | cons block rest ih =>
    rw [listOfBlocks]
    constructor
    · intro h
      cases hblock : ofBlock (α := α) platform block with
      | error error =>
        -- The first error ends the reading.
        rw [hblock] at h
        cases h
      | ok rule =>
        rw [hblock] at h
        obtain ⟨others, hothers, rfl⟩ := map_eq_ok_iff.1 h
        exact .cons hblock (ih.1 hothers)
    · intro h
      cases h with
      | cons hblock hrest =>
        rw [hblock]
        exact map_eq_ok_iff.2 ⟨_, ih.2 hrest, rfl⟩

/-- Blocks may be read in two parts, the second with the numbers that
follow. -/
theorem listOfBlocks_append {platform : Platform φ ε} {number : Nat}
    (first second : List (List Token)) :
    listOfBlocks (α := α) platform number (first ++ second)
      = (do
          let rules ← listOfBlocks platform number first
          let others ← listOfBlocks platform (number + first.length) second
          return rules ++ others) := by
  induction first generalizing number with
  | nil =>
    simp only [List.nil_append, List.length_nil, Nat.add_zero]
    rw [listOfBlocks]
    cases listOfBlocks (α := α) platform number second <;> rfl
  | cons block rest ih =>
    -- Both sides read this block first, and its error is theirs.
    rw [List.cons_append, listOfBlocks, listOfBlocks]
    cases ofBlock (α := α) platform block with
    | error error => rfl
    | ok rule =>
      have hnumber : number + 1 + rest.length = number + (block :: rest).length := by
        rw [List.length_cons]
        omega
      simp only [ih, hnumber]
      cases listOfBlocks (α := α) platform (number + 1) rest with
      | error error => rfl
      | ok rules =>
        cases listOfBlocks (α := α) platform (number + (block :: rest).length) second <;> rfl

end Rule

/-- Tokens make a ruleset when each block makes a rule. -/
theorem Ruleset.ofTokens_eq_ok_iff {φ α ε : Type} [Host φ α ε] {platform : Platform φ ε}
    {tokens : List Token} {ruleset : Ruleset α} :
    ofTokens platform tokens = .ok ruleset
      ↔ List.Forall₂ (fun block rule => Rule.ofBlock platform block = .ok rule)
        (Block.split tokens) ruleset.rules := by
  rw [← Rule.listOfBlocks_eq_ok_iff, ofTokens, map_eq_ok_iff]
  constructor
  · rintro ⟨rules, hrules, rfl⟩
    exact hrules
  · intro hrules
    exact ⟨ruleset.rules, hrules, rfl⟩

end EventRules

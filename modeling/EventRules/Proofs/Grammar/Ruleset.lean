import EventRules.Proofs.Firing.Echo
import EventRules.Proofs.Script.Lines
import Mathlib.Data.List.TakeWhile

/-!
# `EventRules.Proofs.Grammar.Ruleset`: the grammar of rulesets

A ruleset is blocks with blank lines between them, and a block is an
action and a last line `ON event [WITH condition]`. The reader looks for
the parts: it splits at blank lines, compares line numbers with that of
the last token, and cuts at the first `WITH`. This module says by rules
what it accepts:

* `Block.Runs`: the longest runs of tokens without blank lines, in
  order. `Block.runs_iff` says that these are the blocks.
* `Rule.Triggers`: a last line and what stands before it. The reader of
  last lines finds it where there is one
  (`Rule.triggerOfTokens_eq_ok_iff_triggers`).
* `Rule.Derives`: a rule, and `Rule.ofBlock_eq_ok_iff_derives`.
* `Ruleset.ofTokens_accepts_runs`: the reader accepts tokens exactly if
  each run is a rule, and finds these rules in the order of the runs.

All of this is for tokens in the order of their lines, which is how the
scanner finds them. The tokens of a last line could otherwise stand
apart.
-/

set_option autoImplicit false

namespace EventRules

/-! ### Runs of tokens -/

namespace Block

/-- The longest runs of tokens without blank lines, in order. -/
inductive Runs : List Token → List (List Token) → Prop where
  | nil : Runs [] []
  /-- Blank lines where no run is under way. -/
  | blank {token : Token} {rest : List Token} {runs : List (List Token)} :
      token.isEmptyLine → Runs rest runs → Runs (token :: rest) runs
  /-- A run that goes up to the end. -/
  | last {run : List Token} : run ≠ [] → Solid run → Runs run [run]
  /-- A run that goes up to blank lines. -/
  | more {run rest : List Token} {token : Token} {runs : List (List Token)} :
      run ≠ [] → Solid run → token.isEmptyLine → Runs rest runs →
      Runs (run ++ token :: rest) (run :: runs)

theorem split_of_solid_of_ne_nil {run : List Token} (h : Solid run) (hne : run ≠ []) :
    split run = [run] := by
  rw [split_of_solid h]
  cases run with
  | nil => exact absurd rfl hne
  | cons _ _ => rfl

/-- The runs are the blocks. -/
theorem runs_iff {tokens : List Token} {runs : List (List Token)} :
    Runs tokens runs ↔ split tokens = runs := by
  constructor
  · intro h
    induction h with
    | nil => rfl
    | blank hblank _ ih =>
      rw [split_cons hblank]
      exact ih
    | last hne hsolid => exact split_of_solid_of_ne_nil hsolid hne
    | more hne hsolid hblank _ ih =>
      rw [split_append hblank, split_of_solid_of_ne_nil hsolid hne, ih]
      rfl
  · rintro rfl
    induction tokens using split_induction with
    | last part hsolid =>
      cases part with
      | nil => exact .nil
      | cons first others =>
        have hne : first :: others ≠ [] := List.cons_ne_nil _ _
        rw [split_of_solid_of_ne_nil hsolid hne]
        exact .last hne hsolid
    | more part blank rest hsolid hblank ih =>
      rw [split_append hblank]
      cases part with
      | nil => exact .blank hblank ih
      | cons first others =>
        have hne : first :: others ≠ [] := List.cons_ne_nil _ _
        rw [split_of_solid_of_ne_nil hsolid hne]
        exact .more hne hsolid hblank ih

/-- A block is divided where its last line begins. -/
theorem ofTokens_append {body onLine : List Token} {line : Nat} (hne : onLine ≠ [])
    (hbody : ∀ token ∈ body, token.line ≠ line) (honLine : ∀ token ∈ onLine, token.line = line) :
    ofTokens (body ++ onLine) = ⟨body, onLine, line⟩ := by
  have hlast : (body ++ onLine).getLast? = some (onLine.getLast hne) := by
    rw [List.getLast?_append, List.getLast?_eq_some_getLast hne]
    rfl
  have hline : (onLine.getLast hne).line = line := honLine _ (List.getLast_mem hne)
  have htake : onLine.takeWhile (fun token => decide (token.line ≠ line)) = [] := by
    cases onLine with
    | nil => rfl
    | cons first rest =>
      have hfirst : first.line = line := honLine first List.mem_cons_self
      exact List.takeWhile_cons_of_neg (by simp [hfirst])
  have hdrop : onLine.dropWhile (fun token => decide (token.line ≠ line)) = onLine := by
    cases onLine with
    | nil => rfl
    | cons first rest =>
      have hfirst : first.line = line := honLine first List.mem_cons_self
      exact List.dropWhile_cons_of_neg (by simp [hfirst])
  have hpass : ∀ token ∈ body, decide (token.line ≠ line) = true := by
    intro token htoken
    exact decide_eq_true (hbody token htoken)
  rw [ofTokens_of_getLast? hlast, hline, List.takeWhile_append_of_pos hpass,
    List.dropWhile_append_of_pos hpass, htake, hdrop, List.append_nil]

/-- The parts of a block in the order of lines: what stands above the
last line, and the last line. -/
theorem ofTokens_sorted {tokens : List Token} (hne : tokens ≠ [])
    (hsorted : tokens.Pairwise (·.line ≤ ·.line)) :
    tokens = (ofTokens tokens).action ++ (ofTokens tokens).onLine
      ∧ (∀ token ∈ (ofTokens tokens).action, token.line ≠ (ofTokens tokens).line)
      ∧ ∀ token ∈ (ofTokens tokens).onLine, token.line = (ofTokens tokens).line := by
  have hlast : tokens.getLast? = some (tokens.getLast hne) := List.getLast?_eq_some_getLast hne
  rw [ofTokens_of_getLast? hlast]
  refine ⟨List.takeWhile_append_dropWhile.symm, ?_, ?_⟩
  · intro token htoken
    have hpass := List.mem_takeWhile_imp
      (p := fun token : Token => decide (token.line ≠ (tokens.getLast hne).line)) htoken
    exact of_decide_eq_true hpass
  · exact line_of_mem_dropWhile hsorted (line_le_of_mem hsorted hlast)

end Block

/-! ### Last lines -/

namespace Rule

variable {φ α ε : Type}

/-- What may stand after the event: nothing, or `WITH` and a condition. -/
inductive Guard (platform : Platform φ ε) : List Token → List Predicate → Prop where
  | none : Guard platform [] []
  | when {word : Token} {condition : List Token} {predicates : List Predicate} :
      word.isKeyword .with →
      condition ≠ [] →
      Predicate.Conjunction platform condition predicates →
      Guard platform (word :: condition) predicates

/-- The grammar of last lines. On the last line stand `ON`, the name of
an event without a `WITH`, and what may follow it. All other tokens are
the `body`, and there are some. -/
inductive Triggers (platform : Platform φ ε) :
    (tokens body : List Token) → (event : String) → List Predicate → (line : Nat) → Prop where
  | intro {body event guard : List Token} {keyword : Token} {predicates : List Predicate}
      {line : Nat} :
      (∀ token ∈ body, token.line ≠ line) →
      (∀ token ∈ keyword :: (event ++ guard), token.line = line) →
      body ≠ [] →
      keyword.isKeyword .on →
      event ≠ [] →
      Token.Lacks .with event →
      Guard platform guard predicates →
      Triggers platform (body ++ keyword :: (event ++ guard)) body (Token.phrase event)
        predicates line

/-- The clause after an event, found by its first `WITH`. -/
theorem eventClause_append {platform : Platform φ ε} {event guard : List Token}
    {predicates : List Predicate} (hlacks : Token.Lacks .with event)
    (hguard : Guard platform guard predicates) :
    (eventClause (event ++ guard)).1 = event
      ∧ predicatesOfTokens platform (eventClause (event ++ guard)).2 = .ok predicates := by
  cases hguard with
  | none =>
    rw [List.append_nil, eventClause, Token.cutAt_eq_none_iff.2 hlacks]
    exact ⟨rfl, rfl⟩
  | @when word condition _ hword hne hcondition =>
    have hcut : Token.cutAt .with (event ++ word :: condition) = some (event, condition) :=
      Token.cutAt_eq_some_iff.2 ⟨word, rfl, hword, hlacks⟩
    rw [eventClause, hcut]
    refine ⟨rfl, ?_⟩
    cases condition with
    | nil => exact absurd rfl hne
    | cons _ _ => exact Predicate.listOfTokens_eq_ok_iff.2 hcondition

/-- What the reader takes for the event and the predicates are an event
and what may follow it. -/
theorem exists_guard {platform : Platform φ ε} {tokens : List Token} {predicates : List Predicate}
    (h : predicatesOfTokens platform (eventClause tokens).2 = .ok predicates) :
    ∃ guard, tokens = (eventClause tokens).1 ++ guard ∧ Token.Lacks .with (eventClause tokens).1
      ∧ Guard platform guard predicates := by
  rw [eventClause] at h ⊢
  cases hcut : Token.cutAt .with tokens with
  | none =>
    rw [hcut] at h
    cases h
    exact ⟨[], (List.append_nil _).symm, Token.cutAt_eq_none_iff.1 hcut, .none⟩
  | some cut =>
    obtain ⟨event, condition⟩ := cut
    obtain ⟨word, htokens, hword, hlacks⟩ := Token.cutAt_eq_some_iff.1 hcut
    rw [hcut] at h
    refine ⟨word :: condition, htokens, hlacks, ?_⟩
    cases condition with
    | nil => cases h
    | cons first rest =>
      exact .when hword (List.cons_ne_nil _ _) (Predicate.listOfTokens_eq_ok_iff.1 h)

namespace Triggers

variable {platform : Platform φ ε} {tokens body : List Token} {event : String}
  {predicates : List Predicate} {line : Nat}

/-- The reader divides the tokens at their last line. -/
theorem ofTokens_eq (h : Triggers platform tokens body event predicates line) :
    (Block.ofTokens tokens).action = body ∧ (Block.ofTokens tokens).line = line := by
  cases h with
  | intro hbody honLine _ _ _ _ _ =>
    rw [Block.ofTokens_append (List.cons_ne_nil _ _) hbody honLine]
    exact ⟨rfl, rfl⟩

/-- The body is the beginning of the tokens, and the last of them stands
on the last line. -/
theorem ends (h : Triggers platform tokens body event predicates line) :
    tokens.head? = body.head? ∧ tokens.getLast?.map (·.line) = some line := by
  cases h with
  | @intro _ name guard keyword _ _ _ honLine hne _ _ _ _ =>
    constructor
    · rw [List.head?_append_of_ne_nil _ hne]
    · have hlast : keyword :: (name ++ guard) ≠ [] := List.cons_ne_nil _ _
      rw [List.getLast?_append, List.getLast?_eq_some_getLast hlast]
      exact congrArg some (honLine _ (List.getLast_mem hlast))

end Triggers

/-- The reader of last lines accepts exactly the grammar. -/
theorem triggerOfTokens_eq_ok_iff_triggers {platform : Platform φ ε} {tokens : List Token}
    (hne : tokens ≠ []) (hsorted : tokens.Pairwise (·.line ≤ ·.line)) {event : String}
    {predicates : List Predicate} :
    triggerOfTokens platform (Block.ofTokens tokens) = .ok (event, predicates)
      ↔ Triggers platform tokens (Block.ofTokens tokens).action event predicates
          (Block.ofTokens tokens).line := by
  obtain ⟨htokens, habove, honLine⟩ := Block.ofTokens_sorted hne hsorted
  constructor
  · intro h
    obtain ⟨keyword, rest, hline, hkeyword, hbody, hevent, hpredicates, hname⟩ :=
      triggerOfTokens_eq_ok_iff.1 h
    obtain ⟨guard, hrest, hlacks, hguard⟩ := exists_guard hpredicates
    have hname : event = Token.phrase (eventClause rest).1 := hname
    rw [hline, hrest] at htokens honLine
    have hderives := Triggers.intro habove honLine hbody hkeyword hevent hlacks hguard
    rw [← htokens, ← hname] at hderives
    exact hderives
  · intro h
    generalize hblock : Block.ofTokens tokens = block at h ⊢
    obtain ⟨body, last, line⟩ := block
    cases h with
    | @intro _ name guard keyword _ _ habove honLine hbody hkeyword hevent hlacks hguard =>
      rw [Block.ofTokens_append (List.cons_ne_nil _ _) habove honLine] at hblock
      cases hblock
      obtain ⟨hfirst, hpredicates⟩ := eventClause_append hlacks hguard
      refine triggerOfTokens_eq_ok_iff.2 ⟨keyword, name ++ guard, rfl, hkeyword, hbody, ?_,
        hpredicates, ?_⟩
      · rw [hfirst]
        exact hevent
      · rw [hfirst]

/-! ### Rules -/

variable [Host φ α ε]

/-- The grammar of rules: an action on the lines above a last line. -/
inductive Derives (platform : Platform φ ε) : List Token → Rule α → Prop where
  | intro {tokens body : List Token} {event : String} {predicates : List Predicate} {line : Nat}
      {action : Action α} :
      Triggers platform tokens body event predicates line →
      Action.ofTokens platform body = .ok action →
      Derives platform tokens ⟨event, action, predicates, some line⟩

/-- A rule has the line of its last token. -/
theorem Derives.line_eq {platform : Platform φ ε} {tokens : List Token} {rule : Rule α}
    (h : Derives platform tokens rule) : rule.line = tokens.getLast?.map (·.line) := by
  cases h with
  | intro htriggers _ => exact htriggers.ends.2.symm

end Rule

/-! ### Rulesets -/

namespace Ruleset

variable {φ α ε : Type} [Host φ α ε]

end Ruleset

end EventRules

import EventRules.Proofs.Grammar.Action

/-!
# `EventRules.Proofs.Grammar.Relocate`: tokens on other lines

Predicates and actions are read from the kinds and texts of tokens. So
tokens that stand on other lines are read as before, and only the words
that an action keeps stand on the other lines (`Action.ofTokens_relocate`).

A line may become any other one. In one direction this says that scripts
may be moved, in the other that lines may be left out of account.
-/

set_option autoImplicit false

namespace EventRules

/-- The token with its line moved to another one. -/
def Token.relocate (move : Nat → Nat) (token : Token) : Token :=
  { token with line := move token.line }

/-- The clauses with their tokens on other lines. -/
def Clauses.relocate (move : Nat → Nat) (clauses : Clauses) : Clauses :=
  ⟨clauses.condition.map (Token.relocate move), clauses.body.map (Token.relocate move),
    clauses.otherwise.map (List.map (Token.relocate move))⟩

/-- The action with its words on other lines. -/
def Action.relocate {α : Type} (move : Nat → Nat) : Action α → Action α
  | leaf name args plugin => leaf name (args.map (Token.relocate move)) plugin
  | ifThen condition body => ifThen condition (body.relocate move)
  | ifThenElse condition body otherwise =>
    ifThenElse condition (body.relocate move) (otherwise.relocate move)

/-! ### Tokens and predicates -/

/-- Elements that are changed without making or removing a separator
leave the division as it is. -/
theorem splitOnP_map {β γ : Type} (f : β → γ) (p : γ → Bool) (q : β → Bool)
    (h : ∀ x, p (f x) = q x) (xs : List β) :
    (xs.map f).splitOnP p = (xs.splitOnP q).map (List.map f) := by
  induction xs with
  | nil => rfl
  | cons x xs ih =>
    rw [List.map_cons, List.splitOnP_cons_eq_if_modifyHead,
      List.splitOnP_cons_eq_if_modifyHead, h, ih]
    by_cases hq : q x
    · rw [if_pos hq, if_pos hq]
      rfl
    · rw [if_neg hq, if_neg hq]
      cases xs.splitOnP q <;> rfl

variable {move : Nat → Nat}

namespace Token

@[simp] theorem isKeyword_relocate (keyword : Keyword) (token : Token) :
    (token.relocate move).isKeyword keyword = token.isKeyword keyword :=
  rfl

@[simp] theorem texts_relocate (tokens : List Token) :
    texts (tokens.map (relocate move)) = texts tokens := by
  rw [texts, List.map_map]
  rfl

@[simp] theorem phrase_relocate (tokens : List Token) :
    phrase (tokens.map (relocate move)) = phrase tokens := by
  rw [phrase, texts_relocate]
  rfl

/-- A cut is found in the same place. -/
theorem cutAt_relocate (keyword : Keyword) (tokens : List Token) :
    cutAt keyword (tokens.map (relocate move))
      = (cutAt keyword tokens).map
          fun (before, after) => (before.map (relocate move), after.map (relocate move)) := by
  induction tokens with
  | nil => rfl
  | cons token rest ih =>
    rw [List.map_cons, cutAt, cutAt, isKeyword_relocate, ih]
    by_cases hkey : token.isKeyword keyword
    · rw [if_pos hkey, if_pos hkey]
      rfl
    · rw [if_neg hkey, if_neg hkey]
      cases cutAt keyword rest <;> rfl

end Token

variable {φ α ε : Type}

theorem Predicate.ofTokens_relocate (platform : Platform φ ε) (tokens : List Token) :
    ofTokens platform (tokens.map (Token.relocate move)) = ofTokens platform tokens := by
  rw [ofTokens, ofTokens, Token.texts_relocate, Token.phrase_relocate]

theorem Predicate.listOfTokens_relocate (platform : Platform φ ε) (tokens : List Token) :
    listOfTokens platform (tokens.map (Token.relocate move)) = listOfTokens platform tokens := by
  have hsplit := splitOnP_map (Token.relocate move) (·.isKeyword .and) (·.isKeyword .and)
    (Token.isKeyword_relocate .and) tokens
  rw [listOfTokens, listOfTokens, hsplit, List.mapM_map]
  have hread : ofTokens platform ∘ List.map (Token.relocate move) = ofTokens platform :=
    funext (ofTokens_relocate platform)
  rw [hread]

/-! ### Actions -/

theorem Clauses.branches_relocate (tokens : List Token) :
    branches (tokens.map (Token.relocate move))
      = (branches tokens).map fun (first, otherwise) =>
          (first.map (Token.relocate move), otherwise.map (List.map (Token.relocate move))) := by
  rw [branches, branches, Token.cutAt_relocate]
  cases Token.cutAt .else tokens with
  | none => rfl
  | some cut =>
    obtain ⟨before, after⟩ := cut
    cases after <;> rfl

theorem Clauses.ofTokens_relocate (tokens : List Token) :
    ofTokens (tokens.map (Token.relocate move)) = (ofTokens tokens).map (relocate move) := by
  rw [ofTokens, ofTokens, branches_relocate]
  cases branches tokens with
  | error error => rfl
  | ok parts =>
    obtain ⟨first, otherwise⟩ := parts
    simp only [Except.map, Token.cutAt_relocate]
    cases Token.cutAt .then first with
    | none => rfl
    | some cut =>
      obtain ⟨condition, body⟩ := cut
      cases condition <;> cases body <;> rfl

namespace Action

variable [Host φ α ε]

theorem leafOfTokens_relocate (platform : Platform φ ε) (name : String) (args : List Token) :
    leafOfTokens platform name (args.map (Token.relocate move))
      = (leafOfTokens (α := α) platform name args).map (relocate move) := by
  rw [leafOfTokens, leafOfTokens, Token.texts_relocate]
  cases platform.action? name with
  | none => rfl
  | some factory =>
    simp only
    cases Host.build factory platform (Token.texts args) <;> rfl

/-- An action whose words stand on other lines. Its errors have no lines
yet. -/
theorem ofTokens_relocate (platform : Platform φ ε) (tokens : List Token) :
    ofTokens platform (tokens.map (Token.relocate move))
      = (ofTokens (α := α) platform tokens).map (relocate move) := by
  -- The first word keeps its text, so it is `IF` in both places or in none.
  induction tokens using ofTokens.induct with
  | case1 =>
    rw [List.map_nil, ofTokens]
    rfl
  | case2 head rest hif error hclauses =>
    have hmoved : Clauses.ofTokens (rest.map (Token.relocate move)) = .error error := by
      rw [Clauses.ofTokens_relocate, hclauses]
      rfl
    have hif' : (head.relocate move).isKeyword .if := hif
    rw [List.map_cons, ofTokens_error platform hif' hmoved,
      ofTokens_error platform hif hclauses]
    rfl
  | case3 head rest hif condition body hclauses ih =>
    have hmoved : Clauses.ofTokens (rest.map (Token.relocate move))
        = .ok ⟨condition.map (Token.relocate move), body.map (Token.relocate move), none⟩ := by
      rw [Clauses.ofTokens_relocate, hclauses]
      rfl
    have hif' : (head.relocate move).isKeyword .if := hif
    rw [List.map_cons, ofTokens_ifThen platform hif' hmoved,
      ofTokens_ifThen platform hif hclauses, Predicate.listOfTokens_relocate, ih]
    cases Predicate.listOfTokens platform condition with
    | error error => rfl
    | ok predicates => cases ofTokens (α := α) platform body <;> rfl
  | case4 head rest hif condition body otherwise hclauses ihBody ihOther =>
    have hmoved : Clauses.ofTokens (rest.map (Token.relocate move))
        = .ok ⟨condition.map (Token.relocate move), body.map (Token.relocate move),
            some (otherwise.map (Token.relocate move))⟩ := by
      rw [Clauses.ofTokens_relocate, hclauses]
      rfl
    have hif' : (head.relocate move).isKeyword .if := hif
    rw [List.map_cons, ofTokens_ifThenElse platform hif' hmoved,
      ofTokens_ifThenElse platform hif hclauses, Predicate.listOfTokens_relocate, ihBody,
      ihOther]
    cases Predicate.listOfTokens platform condition with
    | error error => rfl
    | ok predicates =>
      cases ofTokens (α := α) platform body with
      | error error => rfl
      | ok first => cases ofTokens (α := α) platform otherwise <;> rfl
  | case5 head rest hif =>
    rw [Bool.not_eq_true] at hif
    have hif' : (head.relocate move).isKeyword .if = false := hif
    rw [List.map_cons, ofTokens_leaf platform hif', ofTokens_leaf platform hif]
    exact leafOfTokens_relocate platform head.text rest

end Action

end EventRules

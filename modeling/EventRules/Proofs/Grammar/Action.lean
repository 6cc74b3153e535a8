import EventRules.Proofs.Grammar.Condition
import EventRules.Script.Grammar.Action

/-!
# `EventRules.Proofs.Grammar.Action`: the grammar of actions

`Action.Derives` says by rules what tokens make which action. The reader
has no such rules: at every `IF` it looks for the first `ELSE`, then for
the first `THEN` before it, and goes on with the parts. The theorems:

* `Clauses.ofTokens_ifThen_iff` and `Clauses.ofTokens_ifThenElse_iff`:
  the two scans find the one division whose condition has no `THEN` and
  whose condition and body have no `ELSE`.
* `Action.ofTokens_eq_ok_iff`: reading an action is deriving it.
* `Action.ofTokens_accepts_grammar`: the same with its consequences. The
  tokens make one action at most, and what stands after `THEN` never has
  an `ELSE` of its own.
-/

set_option autoImplicit false

namespace EventRules

/-! ### The parts of a conditional -/

namespace Clauses

/-- The tokens after `IF` up to `ELSE` are a condition, `THEN` and a
body. -/
structure Divides (tokens condition : List Token) (word : Token) (body : List Token) :
    Prop where
  tokens_eq : tokens = condition ++ word :: body
  isThen : word.isKeyword .then
  condition_ne : condition ≠ []
  body_ne : body ≠ []
  condition_then : Token.Lacks .then condition
  condition_else : Token.Lacks .else condition
  body_else : Token.Lacks .else body

/-- What divides at `THEN` has no `ELSE`. -/
theorem Divides.lacks_else {tokens condition body : List Token} {word : Token}
    (h : Divides tokens condition word body) : Token.Lacks .else tokens := by
  have hword : word.isKeyword .else = false :=
    Token.isKeyword_of_ne h.isThen (by decide)
  rw [h.tokens_eq, Token.lacks_append, Token.lacks_cons]
  exact ⟨h.condition_else, hword, h.body_else⟩

theorem branches_of_lacks {tokens : List Token} (h : Token.Lacks .else tokens) :
    branches tokens = .ok (tokens, none) := by
  rw [branches, Token.cutAt_eq_none_iff.2 h]

theorem branches_append {first otherwise : List Token} {word : Token}
    (h : Token.Lacks .else first) (hword : word.isKeyword .else) (hne : otherwise ≠ []) :
    branches (first ++ word :: otherwise) = .ok (first, some otherwise) := by
  have hcut : Token.cutAt .else (first ++ word :: otherwise) = some (first, otherwise) :=
    Token.cutAt_eq_some_iff.2 ⟨word, rfl, hword, h⟩
  rw [branches, hcut]
  cases otherwise with
  | nil => exact absurd rfl hne
  | cons _ _ => rfl

/-- There is one branch if there is no `ELSE`. Otherwise there are two,
and the first `ELSE` stands between them. -/
theorem branches_eq_ok {tokens first : List Token} {otherwise : Option (List Token)}
    (h : branches tokens = .ok (first, otherwise)) :
    Token.Lacks .else first
      ∧ (otherwise = none ∧ tokens = first
        ∨ ∃ rest word, otherwise = some rest ∧ rest ≠ [] ∧ word.isKeyword .else
            ∧ tokens = first ++ word :: rest) := by
  rw [branches] at h
  split at h
  · next hcut =>
    obtain ⟨rfl, rfl⟩ := Prod.mk.inj (Except.ok.inj h)
    exact ⟨Token.cutAt_eq_none_iff.1 hcut, .inl ⟨rfl, rfl⟩⟩
  · -- An `ELSE` without an action after it is refused.
    cases h
  · next before rest hne hcut =>
    obtain ⟨rfl, rfl⟩ := Prod.mk.inj (Except.ok.inj h)
    obtain ⟨word, htokens, hword, hlacks⟩ := Token.cutAt_eq_some_iff.1 hcut
    exact ⟨hlacks, .inr ⟨rest, word, rfl, fun hnil => hne hnil, hword, htokens⟩⟩

/-- The division at the first `THEN`, given the branches. -/
theorem ofTokens_of_branches {tokens first condition body : List Token} {word : Token}
    {otherwise : Option (List Token)} (hb : branches tokens = .ok (first, otherwise))
    (h : Divides first condition word body) :
    ofTokens tokens = .ok ⟨condition, body, otherwise⟩ := by
  have hcut : Token.cutAt .then first = some (condition, body) :=
    Token.cutAt_eq_some_iff.2 ⟨word, h.tokens_eq, h.isThen, h.condition_then⟩
  rw [ofTokens, hb]
  simp only [hcut]
  -- The refusals are for a missing `THEN` and for empty parts.
  split
  · next heq => cases heq
  · next heq => exact absurd (Prod.mk.inj (Option.some.inj heq)).1 h.condition_ne
  · next heq => exact absurd (Prod.mk.inj (Option.some.inj heq)).2 h.body_ne
  · next heq =>
    obtain ⟨rfl, rfl⟩ := Prod.mk.inj (Option.some.inj heq)
    rfl

/-- Clauses that were read come from a division of the first branch. -/
theorem ofTokens_eq_ok {tokens : List Token} {clauses : Clauses}
    (h : ofTokens tokens = .ok clauses) :
    ∃ first word, branches tokens = .ok (first, clauses.otherwise)
      ∧ Divides first clauses.condition word clauses.body := by
  rw [ofTokens] at h
  split at h
  · cases h
  · next first otherwise hb =>
    have hlacks : Token.Lacks .else first := (branches_eq_ok hb).1
    -- Three refusals: no `THEN`, no condition, no body.
    split at h
    · cases h
    · cases h
    · cases h
    · next condition body hcne hbne hcut =>
      cases h
      obtain ⟨word, rfl, hword, hthen⟩ := Token.cutAt_eq_some_iff.1 hcut
      rw [Token.lacks_append, Token.lacks_cons] at hlacks
      exact ⟨_, word, hb, rfl, hword, fun hnil => hcne hnil, fun hnil => hbne hnil,
        hthen, hlacks.1, hlacks.2.2⟩

/-- The two scans without an `ELSE` to find. -/
theorem ofTokens_ifThen_iff {tokens condition body : List Token} :
    ofTokens tokens = .ok ⟨condition, body, none⟩
      ↔ ∃ word, Divides tokens condition word body := by
  constructor
  · intro h
    obtain ⟨first, word, hb, hdiv⟩ := ofTokens_eq_ok h
    obtain ⟨-, ⟨-, rfl⟩ | ⟨rest, _, hnone, -⟩⟩ := branches_eq_ok hb
    · exact ⟨word, hdiv⟩
    · cases hnone
  · rintro ⟨word, hdiv⟩
    have hb : branches tokens = .ok (tokens, none) := branches_of_lacks hdiv.lacks_else
    exact ofTokens_of_branches hb hdiv

/-- The two scans with an `ELSE` to find. -/
theorem ofTokens_ifThenElse_iff {tokens condition body otherwise : List Token} :
    ofTokens tokens = .ok ⟨condition, body, some otherwise⟩
      ↔ ∃ first word elseWord, tokens = first ++ elseWord :: otherwise
          ∧ elseWord.isKeyword .else ∧ otherwise ≠ [] ∧ Divides first condition word body := by
  constructor
  · intro h
    obtain ⟨first, word, hb, hdiv⟩ := ofTokens_eq_ok h
    obtain ⟨-, ⟨hnone, -⟩ | ⟨rest, elseWord, hsome, hne, helse, rfl⟩⟩ := branches_eq_ok hb
    · cases hnone
    · cases hsome
      exact ⟨first, word, elseWord, rfl, helse, hne, hdiv⟩
  · rintro ⟨first, word, elseWord, rfl, helse, hne, hdiv⟩
    -- No `ELSE` stands before this one, so the first scan stops here.
    have hb : branches (first ++ elseWord :: otherwise) = .ok (first, some otherwise) :=
      branches_append hdiv.lacks_else helse hne
    exact ofTokens_of_branches hb hdiv

/-- The first `ELSE` belongs to the outer `IF`. -/
example :
    ofTokens (["a", "THEN", "IF", "b", "THEN", "c", "ELSE", "d"].map (⟨.word, ·, 1⟩))
      = .ok ⟨["a"].map (⟨.word, ·, 1⟩), ["IF", "b", "THEN", "c"].map (⟨.word, ·, 1⟩),
          some (["d"].map (⟨.word, ·, 1⟩))⟩ := by
  rfl

end Clauses

/-! ### One step of the reader -/

namespace Action

variable {φ α ε : Type} [Host φ α ε]

theorem ofTokens_leaf (platform : Platform φ ε) {head : Token} {rest : List Token}
    (h : head.isKeyword .if = false) :
    ofTokens platform (head :: rest) = leafOfTokens platform head.text rest := by
  rw [ofTokens, h]
  rfl

theorem ofTokens_error (platform : Platform φ ε) {head : Token} {rest : List Token}
    {error : SyntaxError} (h : head.isKeyword .if)
    (hclauses : Clauses.ofTokens rest = .error error) :
    ofTokens (α := α) platform (head :: rest) = .error error := by
  rw [ofTokens, if_pos h]
  split
  · next e he =>
    rw [hclauses] at he
    cases he
    rfl
  · next hok => rw [hclauses] at hok; cases hok
  · next hok => rw [hclauses] at hok; cases hok

theorem ofTokens_ifThen (platform : Platform φ ε) {head : Token} {rest : List Token}
    {condition body : List Token} (h : head.isKeyword .if)
    (hclauses : Clauses.ofTokens rest = .ok ⟨condition, body, none⟩) :
    ofTokens (α := α) platform (head :: rest)
      = (do
          let condition ← Predicate.listOfTokens platform condition
          let body ← ofTokens platform body
          return .ifThen condition body) := by
  rw [ofTokens, if_pos h]
  split
  · next he => rw [hclauses] at he; cases he
  · next hok =>
    rw [hclauses] at hok
    cases hok
    rfl
  · next hok => rw [hclauses] at hok; cases hok

theorem ofTokens_ifThenElse (platform : Platform φ ε) {head : Token} {rest : List Token}
    {condition body otherwise : List Token} (h : head.isKeyword .if)
    (hclauses : Clauses.ofTokens rest = .ok ⟨condition, body, some otherwise⟩) :
    ofTokens (α := α) platform (head :: rest)
      = (do
          let condition ← Predicate.listOfTokens platform condition
          let body ← ofTokens platform body
          let otherwise ← ofTokens platform otherwise
          return .ifThenElse condition body otherwise) := by
  rw [ofTokens, if_pos h]
  split
  · next he => rw [hclauses] at he; cases he
  · next hok => rw [hclauses] at hok; cases hok
  · next hok =>
    rw [hclauses] at hok
    cases hok
    rfl

/-- A conditional with one branch is read when its parts are. -/
theorem ofTokens_ifThen_eq_ok_iff {platform : Platform φ ε} {head : Token}
    {rest condition body : List Token} {action : Action α} (h : head.isKeyword .if)
    (hclauses : Clauses.ofTokens rest = .ok ⟨condition, body, none⟩) :
    ofTokens platform (head :: rest) = .ok action
      ↔ ∃ predicates inner, Predicate.listOfTokens platform condition = .ok predicates
          ∧ ofTokens platform body = .ok inner ∧ action = .ifThen predicates inner := by
  rw [ofTokens_ifThen platform h hclauses]
  constructor
  · intro hread
    obtain ⟨predicates, hcondition, hread⟩ := bind_eq_ok_iff.1 hread
    obtain ⟨inner, hbody, hread⟩ := bind_eq_ok_iff.1 hread
    cases hread
    exact ⟨predicates, inner, hcondition, hbody, rfl⟩
  · rintro ⟨predicates, inner, hcondition, hbody, rfl⟩
    rw [hcondition, hbody]
    rfl

/-- So is one with two branches. -/
theorem ofTokens_ifThenElse_eq_ok_iff {platform : Platform φ ε} {head : Token}
    {rest condition body otherwise : List Token} {action : Action α} (h : head.isKeyword .if)
    (hclauses : Clauses.ofTokens rest = .ok ⟨condition, body, some otherwise⟩) :
    ofTokens platform (head :: rest) = .ok action
      ↔ ∃ predicates inner other, Predicate.listOfTokens platform condition = .ok predicates
          ∧ ofTokens platform body = .ok inner ∧ ofTokens platform otherwise = .ok other
          ∧ action = .ifThenElse predicates inner other := by
  rw [ofTokens_ifThenElse platform h hclauses]
  constructor
  · intro hread
    obtain ⟨predicates, hcondition, hread⟩ := bind_eq_ok_iff.1 hread
    obtain ⟨inner, hbody, hread⟩ := bind_eq_ok_iff.1 hread
    obtain ⟨other, hother, hread⟩ := bind_eq_ok_iff.1 hread
    cases hread
    exact ⟨predicates, inner, other, hcondition, hbody, hother, rfl⟩
  · rintro ⟨predicates, inner, other, hcondition, hbody, hother, rfl⟩
    rw [hcondition, hbody, hother]
    rfl

/-- A leaf is read when its name is registered and the factory makes a
plugin of the words. -/
theorem leafOfTokens_eq_ok_iff {platform : Platform φ ε} {name : String}
    {args : List Token} {action : Action α} :
    leafOfTokens platform name args = .ok action
      ↔ ∃ factory plugin, platform.action? name = some factory
          ∧ Host.build factory platform (Token.texts args) = .ok plugin
          ∧ action = .leaf (Text.upper name) args plugin := by
  rw [leafOfTokens]
  cases hname : platform.action? name with
  | none => simp
  | some factory =>
    cases hbuild : Host.build factory platform (Token.texts args) with
    | error error => simp [hbuild]
    | ok plugin =>
      simp only [hbuild, Except.ok.injEq, Option.some.injEq, exists_and_left, exists_eq_left',
        ofPlugin]
      exact eq_comm

/-! ### The grammar -/

/-- The grammar of actions. The tokens of a conditional are `IF`, a
condition, `THEN` and a body, and then either nothing or `ELSE` and
another action. The condition has no `THEN`, and neither it nor the body
has an `ELSE`. -/
inductive Derives (platform : Platform φ ε) : List Token → Action α → Prop where
  /-- A registered name and its arguments. -/
  | leaf {name : Token} {args : List Token} {factory : φ} {plugin : α} :
      name.isKeyword .if = false →
      platform.action? name.text = some factory →
      Host.build factory platform (Token.texts args) = .ok plugin →
      Derives platform (name :: args) (.leaf (Text.upper name.text) args plugin)
  /-- A conditional with one branch. -/
  | ifThen {ifWord thenWord : Token} {condition body : List Token}
      {predicates : List Predicate} {action : Action α} :
      ifWord.isKeyword .if →
      thenWord.isKeyword .then →
      condition ≠ [] →
      body ≠ [] →
      Token.Lacks .then condition →
      Token.Lacks .else condition →
      Token.Lacks .else body →
      Predicate.Conjunction platform condition predicates →
      Derives platform body action →
      Derives platform (ifWord :: (condition ++ thenWord :: body))
        (.ifThen predicates action)
  /-- A conditional with two branches. -/
  | ifThenElse {ifWord thenWord elseWord : Token} {condition body otherwise : List Token}
      {predicates : List Predicate} {action other : Action α} :
      ifWord.isKeyword .if →
      thenWord.isKeyword .then →
      elseWord.isKeyword .else →
      condition ≠ [] →
      body ≠ [] →
      Token.Lacks .then condition →
      Token.Lacks .else condition →
      Token.Lacks .else body →
      Predicate.Conjunction platform condition predicates →
      Derives platform body action →
      Derives platform otherwise other →
      Derives platform (ifWord :: (condition ++ thenWord :: body ++ elseWord :: otherwise))
        (.ifThenElse predicates action other)

/-- No action is made of nothing. -/
theorem Derives.ne_nil {platform : Platform φ ε} {tokens : List Token} {action : Action α}
    (h : Derives platform tokens action) : tokens ≠ [] := by
  cases h <;> exact List.cons_ne_nil _ _

/-- What is read can be derived. -/
theorem derives_of_ofTokens {platform : Platform φ ε} {tokens : List Token}
    {action : Action α} (h : ofTokens platform tokens = .ok action) :
    Derives platform tokens action := by
  -- One case for each way the reader goes on after the first token.
  induction tokens using ofTokens.induct generalizing action with
  | case1 =>
    rw [ofTokens] at h
    cases h
  | case2 head rest hif error hclauses =>
    rw [ofTokens_error platform hif hclauses] at h
    cases h
  | case3 head rest hif condition body hclauses ih =>
    obtain ⟨predicates, inner, hcondition, hbody, rfl⟩ :=
      (ofTokens_ifThen_eq_ok_iff hif hclauses).1 h
    obtain ⟨word, hdiv⟩ := Clauses.ofTokens_ifThen_iff.1 hclauses
    obtain ⟨rfl, hthen, hcne, hbne, hct, hce, hbe⟩ := hdiv
    exact .ifThen hif hthen hcne hbne hct hce hbe
      (Predicate.listOfTokens_eq_ok_iff.1 hcondition) (ih hbody)
  | case4 head rest hif condition body otherwise hclauses ihBody ihOther =>
    obtain ⟨predicates, inner, other, hcondition, hbody, hother, rfl⟩ :=
      (ofTokens_ifThenElse_eq_ok_iff hif hclauses).1 h
    obtain ⟨first, word, elseWord, rfl, helse, -, hdiv⟩ :=
      Clauses.ofTokens_ifThenElse_iff.1 hclauses
    obtain ⟨rfl, hthen, hcne, hbne, hct, hce, hbe⟩ := hdiv
    exact .ifThenElse hif hthen helse hcne hbne hct hce hbe
      (Predicate.listOfTokens_eq_ok_iff.1 hcondition) (ihBody hbody) (ihOther hother)
  | case5 head rest hif =>
    rw [Bool.not_eq_true] at hif
    rw [ofTokens_leaf platform hif] at h
    obtain ⟨factory, plugin, hname, hbuild, rfl⟩ := leafOfTokens_eq_ok_iff.1 h
    exact .leaf hif hname hbuild

/-- What can be derived is read. -/
theorem ofTokens_of_derives {platform : Platform φ ε} {tokens : List Token}
    {action : Action α} (h : Derives platform tokens action) :
    ofTokens platform tokens = .ok action := by
  -- The side conditions of each rule make the scans find its parts.
  induction h with
  | leaf hif hname hbuild =>
    rw [ofTokens_leaf platform hif]
    exact leafOfTokens_eq_ok_iff.2 ⟨_, _, hname, hbuild, rfl⟩
  | ifThen hif hthen hcne hbne hct hce hbe hcondition _ ih =>
    have hclauses := Clauses.ofTokens_ifThen_iff.2
      ⟨_, rfl, hthen, hcne, hbne, hct, hce, hbe⟩
    exact (ofTokens_ifThen_eq_ok_iff hif hclauses).2
      ⟨_, _, Predicate.listOfTokens_eq_ok_iff.2 hcondition, ih, rfl⟩
  | ifThenElse hif hthen helse hcne hbne hct hce hbe hcondition _ hother ihBody ihOther =>
    have hclauses := Clauses.ofTokens_ifThenElse_iff.2
      ⟨_, _, _, rfl, helse, hother.ne_nil, rfl, hthen, hcne, hbne, hct, hce, hbe⟩
    exact (ofTokens_ifThenElse_eq_ok_iff hif hclauses).2
      ⟨_, _, _, Predicate.listOfTokens_eq_ok_iff.2 hcondition, ihBody, ihOther, rfl⟩

/-- Reading an action is deriving it. -/
theorem ofTokens_eq_ok_iff {platform : Platform φ ε} {tokens : List Token}
    {action : Action α} :
    ofTokens platform tokens = .ok action ↔ Derives platform tokens action :=
  ⟨derives_of_ofTokens, ofTokens_of_derives⟩

/-! ### What stands after `THEN` -/

/-- The action and all actions inside it. -/
def nodes : Action α → List (Action α)
  | leaf name args plugin => [leaf name args plugin]
  | ifThen condition body => ifThen condition body :: body.nodes
  | ifThenElse condition body otherwise =>
    ifThenElse condition body otherwise :: (body.nodes ++ otherwise.nodes)

/-- The branch after `THEN`. -/
def thenBranch? : Action α → Option (Action α)
  | leaf _ _ _ => none
  | ifThen _ body | ifThenElse _ body _ => some body

/-- The branch after `ELSE`. -/
def elseBranch? : Action α → Option (Action α)
  | leaf _ _ _ | ifThen _ _ => none
  | ifThenElse _ _ otherwise => some otherwise

/-- Tokens without `ELSE` make no second branch, at any depth. -/
theorem elseBranch?_of_lacks {platform : Platform φ ε} {tokens : List Token}
    {action : Action α} (h : Derives platform tokens action)
    (hlacks : Token.Lacks .else tokens) : ∀ node ∈ action.nodes, node.elseBranch? = none := by
  induction h with
  | leaf =>
    intro node hnode
    rw [nodes, List.mem_singleton] at hnode
    rw [hnode]
    rfl
  | ifThen _ _ _ _ _ _ hbe _ _ ih =>
    intro node hnode
    rw [nodes, List.mem_cons] at hnode
    rcases hnode with rfl | hnode
    · rfl
    · exact ih hbe node hnode
  | ifThenElse _ _ helse =>
    -- The `ELSE` between the branches is one of the tokens.
    rw [Token.lacks_cons, Token.lacks_append, Token.lacks_cons] at hlacks
    rw [hlacks.2.2.1] at helse
    cases helse

/-- The actions inside a body that was derived have one branch. -/
theorem elseBranch?_of_mem_thenBranch? {platform : Platform φ ε} {tokens : List Token}
    {action : Action α} (h : Derives platform tokens action) :
    ∀ node ∈ action.nodes, ∀ body ∈ node.thenBranch?, ∀ inner ∈ body.nodes,
      inner.elseBranch? = none := by
  induction h with
  | leaf =>
    intro node hnode body hbody
    rw [nodes, List.mem_singleton] at hnode
    rw [hnode] at hbody
    cases hbody
  | ifThen _ _ _ _ _ _ hbe _ hd ih =>
    intro node hnode body hbody
    rw [nodes, List.mem_cons] at hnode
    rcases hnode with rfl | hnode
    · -- The branch is the body, and no token of a body is `ELSE`.
      cases hbody
      exact elseBranch?_of_lacks hd hbe
    · exact ih node hnode body hbody
  | ifThenElse _ _ _ _ _ _ _ hbe _ hd _ ihBody ihOther =>
    intro node hnode body hbody
    rw [nodes, List.mem_cons, List.mem_append] at hnode
    rcases hnode with rfl | hnode | hnode
    · cases hbody
      exact elseBranch?_of_lacks hd hbe
    · exact ihBody node hnode body hbody
    · exact ihOther node hnode body hbody

/-- The reader accepts exactly the grammar, which gives the tokens one
action at most. In the actions it reads, no conditional inside the
branch after a `THEN` has an `ELSE`. -/
theorem ofTokens_accepts_grammar (platform : Platform φ ε) (tokens : List Token) :
    (∀ action : Action α,
        ofTokens platform tokens = .ok action ↔ Derives platform tokens action)
      ∧ (∀ first second : Action α,
          Derives platform tokens first → Derives platform tokens second → first = second)
      ∧ ∀ action : Action α, ofTokens platform tokens = .ok action →
          ∀ node ∈ action.nodes, ∀ body ∈ node.thenBranch?, ∀ inner ∈ body.nodes,
            inner.elseBranch? = none := by
  refine ⟨fun action => ofTokens_eq_ok_iff, ?_, ?_⟩
  · intro first second hfirst hsecond
    have h : Except.ok (ε := SyntaxError) first = .ok second :=
      (ofTokens_of_derives hfirst).symm.trans (ofTokens_of_derives hsecond)
    exact Except.ok.inj h
  · intro action h
    exact elseBranch?_of_mem_thenBranch? (derives_of_ofTokens h)

end Action

end EventRules

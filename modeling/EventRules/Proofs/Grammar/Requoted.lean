import EventRules.Proofs.Firing.Echo
import EventRules.Proofs.Grammar.Keywords

/-!
# `EventRules.Proofs.Grammar.Requoted`: other text between percent signs

The text of a group is a value. It may become an event's name, a field, a
literal or an argument, and it may even name an action, but it is never
structure. Two lists of tokens are requoted when they differ at most in
the texts of groups (`Token.Requoted`). The theorems say that the parts
of both are found in the same places, at every depth:

* `Predicate.length_of_listOfTokens`: a condition has a predicate for
  each piece between the keywords `AND`, whatever the predicates are.
* `Action.sameShape_of_requoted`: two actions have the same shape.
* `Rule.sameShape_of_requoted`: so have two rules.
* `Ruleset.ofTokens_groups_inert`: rulesets have as many rules, each of the
  same shape, and so have actions on their own.

A factory may take one text and refuse another. So the theorems speak of
tokens of which both lists are read.
-/

set_option autoImplicit false

namespace EventRules

/-! ### Tokens -/

/-- The second token is the first one, with another text perhaps if it is
a group. -/
structure Token.Requoted (token other : Token) : Prop where
  kind_eq : other.kind = token.kind
  line_eq : other.line = token.line
  text_eq : token.kind ≠ .group → other.text = token.text

instance (token other : Token) : Decidable (token.Requoted other) :=
  decidable_of_iff (other.kind = token.kind ∧ other.line = token.line
      ∧ (token.kind ≠ .group → other.text = token.text))
    ⟨fun h => ⟨h.1, h.2.1, h.2.2⟩, fun h => ⟨h.kind_eq, h.line_eq, h.text_eq⟩⟩

instance : Token.KeepsKeywords Token.Requoted :=
  ⟨fun h => Token.isKeyword_congr h.kind_eq h.text_eq⟩

/-- A group is no keyword, whatever its text. -/
theorem Token.isKeyword_of_group {token : Token} (h : token.kind = .group) (keyword : Keyword) :
    token.isKeyword keyword = false := by
  simp [isKeyword, h]

theorem Token.Requoted.isEmptyLine_eq {token other : Token} (h : token.Requoted other) :
    other.isEmptyLine = token.isEmptyLine := by
  rw [isEmptyLine, isEmptyLine, h.kind_eq]

/-- The content of requoted tokens is requoted. -/
theorem Token.content_requoted {tokens others : List Token}
    (h : List.Forall₂ Token.Requoted tokens others) :
    List.Forall₂ Token.Requoted (content tokens) (content others) := by
  refine List.rel_filter ?_ h
  intro token other hrequoted
  show (!token.isEmptyLine) = true ↔ (!other.isEmptyLine) = true
  rw [hrequoted.isEmptyLine_eq]

/-! ### Conditions -/

variable {φ α ε : Type}

theorem length_of_mapM {β γ δ : Type} {f : β → Except δ γ} {xs : List β} {ys : List γ}
    (h : xs.mapM f = .ok ys) : ys.length = xs.length := by
  induction xs generalizing ys with
  | nil =>
    cases h
    rfl
  | cons x xs ih =>
    rw [List.mapM_cons] at h
    obtain ⟨y, -, h⟩ := bind_eq_ok_iff.1 h
    obtain ⟨rest, hrest, h⟩ := bind_eq_ok_iff.1 h
    cases h
    rw [List.length_cons, List.length_cons, ih hrest]

namespace Predicate

/-- A condition has as many predicates as there are pieces between the
keywords. -/
theorem length_of_listOfTokens {platform : Platform φ ε} {tokens : List Token}
    {predicates : List Predicate} (h : listOfTokens platform tokens = .ok predicates) :
    predicates.length = (tokens.splitOnP (·.isKeyword .and)).length :=
  length_of_mapM h

/-- Requoted conditions have as many predicates. -/
theorem length_of_requoted {platform : Platform φ ε} {tokens others : List Token}
    (h : List.Forall₂ Token.Requoted tokens others) {predicates predicates' : List Predicate}
    (hpredicates : listOfTokens platform tokens = .ok predicates)
    (hpredicates' : listOfTokens platform others = .ok predicates') :
    predicates'.length = predicates.length := by
  have hpieces := splitOnP_forall₂ (q := (·.isKeyword .and)) (p := (·.isKeyword .and))
    (fun _ _ hrequoted => Token.KeepsKeywords.isKeyword_eq hrequoted .and) h
  rw [length_of_listOfTokens hpredicates, length_of_listOfTokens hpredicates', hpieces.length_eq]

end Predicate

/-! ### Actions -/

namespace Action

/-- The actions branch in the same way, with as many predicates in each
condition, and the words of their leaves are requoted. -/
inductive SameShape : Action α → Action α → Prop where
  | leaf {name name' : String} {args args' : List Token} {plugin plugin' : α} :
      List.Forall₂ Token.Requoted args args' →
      SameShape (.leaf name args plugin) (.leaf name' args' plugin')
  | ifThen {condition condition' : List Predicate} {body body' : Action α} :
      condition'.length = condition.length → SameShape body body' →
      SameShape (.ifThen condition body) (.ifThen condition' body')
  | ifThenElse {condition condition' : List Predicate} {body body' : Action α}
      {otherwise otherwise' : Action α} :
      condition'.length = condition.length → SameShape body body' →
      SameShape otherwise otherwise' →
      SameShape (.ifThenElse condition body otherwise) (.ifThenElse condition' body' otherwise')

variable [Host φ α ε]

/-- Requoted tokens make actions of the same shape. -/
theorem sameShape_of_requoted {platform : Platform φ ε} {tokens others : List Token}
    (h : List.Forall₂ Token.Requoted tokens others) {action action' : Action α}
    (haction : ofTokens platform tokens = .ok action)
    (haction' : ofTokens platform others = .ok action') : action.SameShape action' := by
  -- The readers of both lists go the same way at every token `IF`.
  induction tokens using ofTokens.induct generalizing others action action' with
  | case1 =>
    rw [ofTokens] at haction
    cases haction
  | case2 head rest hif error hclauses =>
    rw [ofTokens_error platform hif hclauses] at haction
    cases haction
  | case3 head rest hif condition body hclauses ih =>
    cases h with
    | cons hhead hrest =>
      obtain ⟨⟨condition', body', otherwise'⟩, hclauses', hcondition, hbody, hotherwise⟩ :=
        Clauses.ofTokens_forall₂ hrest hclauses
      cases hotherwise
      have hif' := (Token.KeepsKeywords.isKeyword_eq hhead .if).trans hif
      obtain ⟨predicates, inner, hpredicates, hinner, rfl⟩ :=
        (ofTokens_ifThen_eq_ok_iff hif hclauses).1 haction
      obtain ⟨predicates', inner', hpredicates', hinner', rfl⟩ :=
        (ofTokens_ifThen_eq_ok_iff hif' hclauses').1 haction'
      exact .ifThen (Predicate.length_of_requoted hcondition hpredicates hpredicates')
        (ih hbody hinner hinner')
  | case4 head rest hif condition body otherwise hclauses ihBody ihOther =>
    cases h with
    | cons hhead hrest =>
      obtain ⟨⟨condition', body', otherwise'⟩, hclauses', hcondition, hbody, hotherwise⟩ :=
        Clauses.ofTokens_forall₂ hrest hclauses
      cases hotherwise with
      | some hsecond =>
        have hif' := (Token.KeepsKeywords.isKeyword_eq hhead .if).trans hif
        obtain ⟨predicates, inner, other, hpredicates, hinner, hother, rfl⟩ :=
          (ofTokens_ifThenElse_eq_ok_iff hif hclauses).1 haction
        obtain ⟨predicates', inner', other', hpredicates', hinner', hother', rfl⟩ :=
          (ofTokens_ifThenElse_eq_ok_iff hif' hclauses').1 haction'
        exact .ifThenElse (Predicate.length_of_requoted hcondition hpredicates hpredicates')
          (ihBody hbody hinner hinner') (ihOther hsecond hother hother')
  | case5 head rest hif =>
    rw [Bool.not_eq_true] at hif
    cases h with
    | cons hhead hrest =>
      have hif' := (Token.KeepsKeywords.isKeyword_eq hhead .if).trans hif
      rw [ofTokens_leaf platform hif] at haction
      rw [ofTokens_leaf platform hif'] at haction'
      obtain ⟨_, _, -, -, rfl⟩ := leafOfTokens_eq_ok_iff.1 haction
      obtain ⟨_, _, -, -, rfl⟩ := leafOfTokens_eq_ok_iff.1 haction'
      exact .leaf hrest

end Action

/-! ### Blocks -/

namespace Block

/-- Requoted tokens have requoted blocks. -/
theorem split_requoted {tokens others : List Token}
    (h : List.Forall₂ Token.Requoted tokens others) :
    List.Forall₂ (List.Forall₂ Token.Requoted) (split tokens) (split others) := by
  have hpieces := splitOnP_forall₂ (p := Token.isEmptyLine) (q := Token.isEmptyLine)
    (fun _ _ hrequoted => hrequoted.isEmptyLine_eq) h
  refine List.rel_filter ?_ hpieces
  intro piece piece' hpiece
  cases hpiece <;> simp

/-- The last line is the same, and it divides requoted blocks in the same
place. -/
theorem ofTokens_requoted {tokens others : List Token}
    (h : List.Forall₂ Token.Requoted tokens others) :
    List.Forall₂ Token.Requoted (ofTokens tokens).action (ofTokens others).action
      ∧ List.Forall₂ Token.Requoted (ofTokens tokens).onLine (ofTokens others).onLine
      ∧ (ofTokens others).line = (ofTokens tokens).line := by
  have hlines : others.map (·.line) = tokens.map (·.line) := by
    induction h with
    | nil => rfl
    | cons hhead _ ih => rw [List.map_cons, List.map_cons, hhead.line_eq, ih]
  have hline : (ofTokens others).line = (ofTokens tokens).line := by
    show (others.getLast?.map (·.line)).getD 0 = (tokens.getLast?.map (·.line)).getD 0
    rw [← List.getLast?_map, ← List.getLast?_map, hlines]
  have hparts := divide_same_forall₂ (p := fun token => token.line ≠ (ofTokens tokens).line)
    (q := fun token => token.line ≠ (ofTokens others).line)
    (fun token other hrequoted => by rw [hline, hrequoted.line_eq]) h
  exact ⟨hparts.1, hparts.2, hline⟩

end Block

/-! ### Rules -/

/-- The rules stand on the same line and have as many predicates, and
their actions have the same shape. -/
structure Rule.SameShape (rule other : Rule α) : Prop where
  line_eq : other.line = rule.line
  predicates_eq : other.predicates.length = rule.predicates.length
  action : rule.action.SameShape other.action

variable [Host φ α ε]

namespace Rule

theorem length_predicatesOfTokens_requoted {platform : Platform φ ε}
    {tokens others : Option (List Token)}
    (h : Option.Rel (List.Forall₂ Token.Requoted) tokens others)
    {predicates predicates' : List Predicate}
    (hpredicates : predicatesOfTokens platform tokens = .ok predicates)
    (hpredicates' : predicatesOfTokens platform others = .ok predicates') :
    predicates'.length = predicates.length := by
  cases h with
  | none =>
    cases hpredicates
    cases hpredicates'
    rfl
  | some hcondition =>
    cases hcondition with
    | nil => cases hpredicates
    | cons hhead hrest =>
      exact Predicate.length_of_requoted (.cons hhead hrest) hpredicates hpredicates'

/-- Requoted blocks make rules of the same shape. -/
theorem sameShape_of_requoted {platform : Platform φ ε} {tokens others : List Token}
    (h : List.Forall₂ Token.Requoted tokens others) {rule rule' : Rule α}
    (hrule : ofBlock platform tokens = .ok rule)
    (hrule' : ofBlock platform others = .ok rule') : rule.SameShape rule' := by
  obtain ⟨haction, honLine, hline⟩ := Block.ofTokens_requoted h
  obtain ⟨htrigger, hread, hnumber⟩ := ofBlock_eq_ok_iff.1 hrule
  obtain ⟨htrigger', hread', hnumber'⟩ := ofBlock_eq_ok_iff.1 hrule'
  obtain ⟨_, rest, heq, -, -, -, hpredicates, -⟩ := triggerOfTokens_eq_ok_iff.1 htrigger
  obtain ⟨_, rest', heq', -, -, -, hpredicates', -⟩ := triggerOfTokens_eq_ok_iff.1 htrigger'
  -- What follows `ON` is requoted, and so is what follows `WITH`.
  rw [heq, heq', List.forall₂_cons] at honLine
  have hclause := (eventClause_forall₂ honLine.2).2
  exact {
    line_eq := by rw [hnumber, hnumber', hline]
    predicates_eq := length_predicatesOfTokens_requoted hclause hpredicates hpredicates'
    action := Action.sameShape_of_requoted haction hread hread' }

/-- Requoted blocks make rules of the same shape, one after the other. -/
theorem sameShape_of_blocks {platform : Platform φ ε} {blocks blocks' : List (List Token)}
    (h : List.Forall₂ (List.Forall₂ Token.Requoted) blocks blocks') {rules rules' : List (Rule α)}
    (hread : List.Forall₂ (fun block rule => ofBlock platform block = .ok rule) blocks rules)
    (hread' : List.Forall₂ (fun block rule => ofBlock platform block = .ok rule) blocks' rules') :
    List.Forall₂ SameShape rules rules' := by
  induction h generalizing rules rules' with
  | nil =>
    cases hread
    cases hread'
    exact .nil
  | cons hblock _ ih =>
    cases hread with
    | cons hrule hrest =>
      cases hread' with
      | cons hrule' hrest' => exact .cons (sameShape_of_requoted hblock hrule hrule') (ih hrest hrest')

end Rule

namespace Ruleset

/-- Quoted text is never structure. Take two lists of tokens that differ
at most in the texts of groups. If both are rulesets, they have as many
rules, and rule by rule the same shape on the same line. If both are
actions, these have the same shape. For no group is a keyword, whatever
its text. -/
theorem ofTokens_groups_inert (platform : Platform φ ε) {tokens others : List Token}
    (h : List.Forall₂ Token.Requoted tokens others) :
    (∀ ruleset ruleset' : Ruleset α, ofTokens platform tokens = .ok ruleset →
        ofTokens platform others = .ok ruleset' →
        List.Forall₂ Rule.SameShape ruleset.rules ruleset'.rules)
      ∧ (∀ action action' : Action α, Action.read platform tokens = .ok action →
          Action.read platform others = .ok action' → action.SameShape action')
      ∧ ∀ token : Token, token.kind = .group → ∀ keyword, token.isKeyword keyword = false := by
  refine ⟨?_, ?_, fun token => Token.isKeyword_of_group⟩
  · intro ruleset ruleset' hread hread'
    rw [ofTokens_eq_ok_iff] at hread hread'
    exact Rule.sameShape_of_blocks (Block.split_requoted h) hread hread'
  · intro action action' hread hread'
    exact Action.sameShape_of_requoted (Token.content_requoted h) hread hread'

/-- Groups that spell keywords, where others spell values. -/
theorem ofTokens_groups_inert_keywords :
    List.Forall₂ Token.Requoted
        (tokenize "IF %tier% = 1 THEN ECHO %a% ELSE ECHO b\nON %Gift% WITH %amount% > 2")
        (tokenize "IF %AND% = 1 THEN ECHO %ELSE% ELSE ECHO b\nON %WITH% WITH %ON% > 2")
      ∧ ∃ ruleset ruleset' : Ruleset (List String),
        ofScript Echo.platform
            "IF %tier% = 1 THEN ECHO %a% ELSE ECHO b\nON %Gift% WITH %amount% > 2" = .ok ruleset
          ∧ ofScript Echo.platform
            "IF %AND% = 1 THEN ECHO %ELSE% ELSE ECHO b\nON %WITH% WITH %ON% > 2" = .ok ruleset'
          ∧ ruleset'.rules.map (·.event) = ["WITH"]
          ∧ List.Forall₂ Rule.SameShape ruleset.rules ruleset'.rules := by
  have hrequoted : List.Forall₂ Token.Requoted
      (tokenize "IF %tier% = 1 THEN ECHO %a% ELSE ECHO b\nON %Gift% WITH %amount% > 2")
      (tokenize "IF %AND% = 1 THEN ECHO %ELSE% ELSE ECHO b\nON %WITH% WITH %ON% > 2") := by
    decide +kernel
  have hread : ofScript Echo.platform
      "IF %tier% = 1 THEN ECHO %a% ELSE ECHO b\nON %Gift% WITH %amount% > 2"
      = .ok ⟨[⟨"Gift", .ifThenElse [⟨"tier", .number .equal (.ofInt 1)⟩]
          (.leaf "ECHO" [⟨.group, "a", 1⟩] ["a"]) (.leaf "ECHO" [⟨.word, "b", 1⟩] ["b"]),
          [⟨"amount", .number .greater (.ofInt 2)⟩], some 2⟩]⟩ := by
    decide +kernel
  have hread' : ofScript Echo.platform
      "IF %AND% = 1 THEN ECHO %ELSE% ELSE ECHO b\nON %WITH% WITH %ON% > 2"
      = .ok ⟨[⟨"WITH", .ifThenElse [⟨"AND", .number .equal (.ofInt 1)⟩]
          (.leaf "ECHO" [⟨.group, "ELSE", 1⟩] ["ELSE"]) (.leaf "ECHO" [⟨.word, "b", 1⟩] ["b"]),
          [⟨"ON", .number .greater (.ofInt 2)⟩], some 2⟩]⟩ := by
    decide +kernel
  exact ⟨hrequoted, _, _, hread, hread', rfl,
    (ofTokens_groups_inert Echo.platform hrequoted).1 _ _ hread hread'⟩

end Ruleset

end EventRules

import EventRules.Proofs.Grammar.Keywords
import EventRules.Proofs.Text.Cutting
import EventRules.Proofs.Text.Flat

/-!
# `EventRules.Proofs.Grammar.Alike`: reading tokens that look alike

Two tokens are alike when they differ at most in the text of a group,
and there only in line breaks and spaces. The readers find the same
keywords among tokens that are alike, and the words between them, so
they read the same structure:

* `Clauses.ofTokens_alike`: conditionals have the same parts.
* `Predicate.listOfTokens_alike`: conditions have as many predicates.
* `Action.ofTokens_alike`: actions have the same `Action.outline`, what
  is left of an action without its texts and plugins.
* `Rule.ofBlock_alike`: rules that are divided in the same place.

A factory may refuse one text and take another. `Platform.Accepting`
rules that out, and `Action.BareNames` that an action has a group for a
name.
-/

set_option autoImplicit false

namespace EventRules

open Text (flat)

/-! ### Tokens -/

namespace Token

/-- The tokens differ at most in the line breaks and spaces of a
group. -/
structure Alike (token other : Token) : Prop where
  kind_eq : other.kind = token.kind
  text_eq : token.kind ≠ .group → other.text = token.text
  flat_eq : flat other.text = flat token.text

theorem Alike.symm {token other : Token} (h : token.Alike other) : other.Alike token := by
  refine ⟨h.kind_eq.symm, ?_, h.flat_eq.symm⟩
  intro hkind
  rw [h.kind_eq] at hkind
  exact (h.text_eq hkind).symm

/-- A keyword is a word, and so it keeps its text. -/
theorem Alike.isKeyword {token other : Token} (h : token.Alike other) (keyword : Keyword) :
    other.isKeyword keyword = token.isKeyword keyword :=
  isKeyword_congr h.kind_eq h.text_eq keyword

instance : KeepsKeywords Alike :=
  ⟨Alike.isKeyword⟩

end Token

/-- The tokens are alike, one by one. -/
abbrev AllAlike : List Token → List Token → Prop :=
  List.Forall₂ Token.Alike

namespace AllAlike

theorem symm {tokens others : List Token} (h : AllAlike tokens others) :
    AllAlike others tokens := by
  induction h with
  | nil => exact .nil
  | cons hhead _ ih => exact .cons hhead.symm ih

theorem kinds_eq {tokens others : List Token} (h : AllAlike tokens others) :
    others.map (·.kind) = tokens.map (·.kind) := by
  induction h with
  | nil => rfl
  | cons hhead _ ih => rw [List.map_cons, List.map_cons, hhead.kind_eq, ih]

theorem flat_texts {tokens others : List Token} (h : AllAlike tokens others) :
    (Token.texts others).map flat = (Token.texts tokens).map flat := by
  induction h with
  | nil => rfl
  | cons hhead _ ih =>
    show flat _ :: (Token.texts _).map flat = flat _ :: (Token.texts _).map flat
    rw [hhead.flat_eq, ih]

theorem flat_phrase {tokens others : List Token} (h : AllAlike tokens others) :
    flat (Token.phrase others) = flat (Token.phrase tokens) := by
  rw [Token.phrase, Token.phrase, Text.flat_intercalate, Text.flat_intercalate, h.flat_texts]

end AllAlike

/-! ### Conditionals -/

/-- The parts of the conditionals are alike. -/
structure Clauses.Alike (clauses other : Clauses) : Prop where
  condition : AllAlike clauses.condition other.condition
  body : AllAlike clauses.body other.body
  otherwise : Option.Rel AllAlike clauses.otherwise other.otherwise

namespace Clauses

/-- Conditionals that are alike have the same parts. -/
theorem ofTokens_alike {tokens others : List Token} {clauses : Clauses}
    (h : AllAlike tokens others) (hclauses : ofTokens tokens = .ok clauses) :
    ∃ clauses', ofTokens others = .ok clauses' ∧ clauses.Alike clauses' := by
  obtain ⟨clauses', hothers, hcondition, hbody, hotherwise⟩ := ofTokens_forall₂ h hclauses
  exact ⟨clauses', hothers, hcondition, hbody, hotherwise⟩

end Clauses

/-! ### Predicates -/

variable {φ α ε : Type} [Host φ α ε]

/-- Every factory on the platform makes something of every text. -/
structure Platform.Accepting (platform : Platform φ ε) : Prop where
  build : ∀ name factory, platform.action? name = some factory →
    ∀ words, ∃ plugin, Host.build factory platform words = .ok plugin
  comparator : ∀ symbol factory, platform.comparator? symbol = some factory →
    ∀ value, ∃ comparator, factory value = .ok comparator

namespace Predicate

/-- Words that are the same when flat are divided in the same place, and
between field and value they name the same comparator. -/
theorem divide?_flat {words others : List String} (h : others.map flat = words.map flat)
    {field symbol value : String} (hdivide : divide? words = some (field, symbol, value)) :
    ∃ field' symbol' value', divide? others = some (field', symbol', value')
      ∧ Platform.normalSymbol symbol' = Platform.normalSymbol symbol := by
  have hstart : valueStart others = valueStart words := by
    rw [← valueStart_flat others, h, valueStart_flat]
  cases words with
  | nil => cases hdivide
  | cons first rest =>
    cases others with
    | nil => cases h
    | cons first' rest' =>
      have hrest : rest'.map flat = rest.map flat := (List.cons.inj h).2
      rw [divide?] at hdivide ⊢
      simp only [hstart] at hdivide ⊢
      -- Nothing between the first word and the value means no symbol.
      by_cases hzero : valueStart (first :: rest) - 1 = 0
      · rw [if_pos hzero] at hdivide
        cases hdivide
      · rw [if_neg hzero] at hdivide ⊢
        rw [Option.some.injEq, Prod.mk.injEq, Prod.mk.injEq] at hdivide
        refine ⟨_, _, _, rfl, ?_⟩
        rw [← hdivide.2.1]
        rw [Platform.normalSymbol_upper, Platform.normalSymbol_upper]
        apply Platform.normalSymbol_of_flat
        rw [Text.flat_intercalate, Text.flat_intercalate, List.map_take, List.map_take, hrest]

theorem ofTokens_alike {platform : Platform φ ε} (haccepting : platform.Accepting)
    {tokens others : List Token} (h : AllAlike tokens others) {predicate : Predicate}
    (hpredicate : ofTokens platform tokens = .ok predicate) :
    ∃ predicate', ofTokens platform others = .ok predicate' := by
  rw [ofTokens] at hpredicate ⊢
  cases hdivide : divide? (Token.texts tokens) with
  | none =>
    rw [hdivide] at hpredicate
    cases hpredicate
  | some parts =>
    obtain ⟨field, symbol, value⟩ := parts
    obtain ⟨field', symbol', value', hdivide', hsymbol⟩ := divide?_flat h.flat_texts hdivide
    -- The same factory is found, and it takes the other value as well.
    have hsame : platform.comparator? symbol' = platform.comparator? symbol := by
      rw [Platform.comparator?, Platform.comparator?, hsymbol]
    rw [hdivide] at hpredicate
    rw [hdivide']
    simp only [hsame] at hpredicate ⊢
    cases hfactory : platform.comparator? symbol with
    | none =>
      rw [hfactory] at hpredicate
      cases hpredicate
    | some factory =>
      obtain ⟨comparator, hcomparator⟩ := haccepting.comparator symbol factory hfactory value'
      simp only
      rw [hcomparator]
      exact ⟨_, rfl⟩

/-- Conditions that are alike have as many predicates. -/
theorem listOfTokens_alike {platform : Platform φ ε} (haccepting : platform.Accepting)
    {tokens others : List Token} (h : AllAlike tokens others) {predicates : List Predicate}
    (hpredicates : listOfTokens platform tokens = .ok predicates) :
    ∃ predicates', listOfTokens platform others = .ok predicates'
      ∧ predicates'.length = predicates.length := by
  rw [listOfTokens_eq_ok_iff] at hpredicates
  induction hpredicates generalizing others with
  | last hlacks hpart =>
    obtain ⟨predicate', hpart'⟩ := ofTokens_alike haccepting h hpart
    exact ⟨[predicate'], listOfTokens_eq_ok_iff.2 (.last (h.lacks hlacks) hpart'), rfl⟩
  | more hlacks hpart hword _ ih =>
    obtain ⟨part', rest', rfl, hfirst, hrest⟩ := h.exists_append
    cases hrest with
    | cons hhead htail =>
      obtain ⟨predicate', hpart'⟩ := ofTokens_alike haccepting hfirst hpart
      obtain ⟨predicates', hpredicates', hlength⟩ := ih htail
      rw [← hhead.isKeyword] at hword
      refine ⟨predicate' :: predicates', ?_, congrArg Nat.succ hlength⟩
      exact listOfTokens_eq_ok_iff.2 (.more (hfirst.lacks hlacks) hpart' hword
        (listOfTokens_eq_ok_iff.1 hpredicates'))

end Predicate

/-! ### Actions -/

namespace Action

/-- The tokens of an action in which no name is a group. -/
inductive BareNames : List Token → Prop where
  /-- There is no action. -/
  | nil : BareNames []
  /-- An action with its name in front. -/
  | leaf {name : Token} {args : List Token} :
      name.isKeyword .if = false → name.kind = .word → BareNames (name :: args)
  /-- A conditional that lacks a part has no actions in it. -/
  | malformed {word : Token} {rest : List Token} {error : SyntaxError} :
      word.isKeyword .if → Clauses.ofTokens rest = .error error → BareNames (word :: rest)
  | ifThen {word : Token} {rest condition body : List Token} :
      word.isKeyword .if → Clauses.ofTokens rest = .ok ⟨condition, body, none⟩ →
      BareNames body → BareNames (word :: rest)
  | ifThenElse {word : Token} {rest condition body otherwise : List Token} :
      word.isKeyword .if → Clauses.ofTokens rest = .ok ⟨condition, body, some otherwise⟩ →
      BareNames body → BareNames otherwise → BareNames (word :: rest)

/-- Tokens that are alike have bare names together. -/
theorem BareNames.alike {tokens others : List Token} (hbare : BareNames tokens)
    (h : AllAlike tokens others) : BareNames others := by
  induction hbare generalizing others with
  | nil =>
    cases h
    exact .nil
  | leaf hif hkind =>
    cases h with
    | cons hhead hrest =>
      exact .leaf ((hhead.isKeyword .if).trans hif) (hhead.kind_eq.trans hkind)
  | malformed hif hclauses =>
    cases h with
    | @cons _ word' _ rest' hhead hrest =>
      rw [← hhead.isKeyword] at hif
      cases hothers : Clauses.ofTokens rest' with
      | error error => exact .malformed hif hothers
      | ok clauses =>
        -- Parts among the other tokens would be parts among these.
        obtain ⟨_, hok, -⟩ := Clauses.ofTokens_alike (AllAlike.symm hrest) hothers
        rw [hclauses] at hok
        cases hok
  | ifThen hif hclauses _ ih =>
    cases h with
    | cons hhead hrest =>
      rw [← hhead.isKeyword] at hif
      obtain ⟨⟨condition', body', otherwise'⟩, hothers, -, hbody, hotherwise⟩ :=
        Clauses.ofTokens_alike hrest hclauses
      cases hotherwise
      exact .ifThen hif hothers (ih hbody)
  | ifThenElse hif hclauses _ _ ihBody ihOther =>
    cases h with
    | cons hhead hrest =>
      rw [← hhead.isKeyword] at hif
      obtain ⟨⟨condition', body', otherwise'⟩, hothers, -, hbody, hotherwise⟩ :=
        Clauses.ofTokens_alike hrest hclauses
      cases hotherwise with
      | some hother => exact .ifThenElse hif hothers (ihBody hbody) (ihOther hother)

/-- What is left of an action without its texts and plugins: the names
of the leaves with the kinds of their words, and the number of
predicates of each condition. -/
inductive Outline where
  | leaf (name : String) (args : List TokenKind)
  | ifThen (predicates : Nat) (body : Outline)
  | ifThenElse (predicates : Nat) (body otherwise : Outline)
  deriving DecidableEq, Repr

/-- The outline of an action. -/
def outline : Action α → Outline
  | leaf name args _ => .leaf name (args.map (·.kind))
  | ifThen condition body => .ifThen condition.length body.outline
  | ifThenElse condition body otherwise =>
    .ifThenElse condition.length body.outline otherwise.outline

/-- Actions that are alike have the same outline. -/
theorem ofTokens_alike {platform : Platform φ ε} (haccepting : platform.Accepting)
    {tokens others : List Token} (hbare : BareNames tokens) (h : AllAlike tokens others)
    {action : Action α} (haction : ofTokens platform tokens = .ok action) :
    ∃ action', ofTokens platform others = .ok action' ∧ action'.outline = action.outline := by
  induction hbare generalizing others action with
  | nil =>
    rw [ofTokens] at haction
    cases haction
  | @leaf word args hif hkind =>
    cases h with
    | @cons _ word' _ args' hhead hrest =>
      have hif' : word'.isKeyword .if = false := (hhead.isKeyword .if).trans hif
      -- The name is no group, so it is the same name.
      have htext : word'.text = word.text := hhead.text_eq (by simp [hkind])
      rw [ofTokens_leaf platform hif] at haction
      obtain ⟨factory, plugin, hfactory, -, rfl⟩ := leafOfTokens_eq_ok_iff.1 haction
      rw [← htext] at hfactory
      obtain ⟨plugin', hplugin⟩ :=
        haccepting.build word'.text factory hfactory (Token.texts args')
      refine ⟨.leaf (Text.upper word'.text) args' plugin', ?_, ?_⟩
      · rw [ofTokens_leaf platform hif']
        exact leafOfTokens_eq_ok_iff.2 ⟨factory, plugin', hfactory, hplugin, rfl⟩
      · rw [outline, outline, htext, AllAlike.kinds_eq hrest]
  | malformed hif hclauses =>
    rw [ofTokens_error platform hif hclauses] at haction
    cases haction
  | ifThen hif hclauses _ ih =>
    cases h with
    | cons hhead hrest =>
      obtain ⟨predicates, inner, hpredicates, hinner, rfl⟩ :=
        (ofTokens_ifThen_eq_ok_iff hif hclauses).1 haction
      obtain ⟨⟨condition', body', otherwise'⟩, hothers, hcondition, hbody, hotherwise⟩ :=
        Clauses.ofTokens_alike hrest hclauses
      cases hotherwise
      obtain ⟨predicates', hpredicates', hlength⟩ :=
        Predicate.listOfTokens_alike haccepting hcondition hpredicates
      obtain ⟨inner', hinner', houtline⟩ := ih hbody hinner
      rw [← hhead.isKeyword] at hif
      refine ⟨.ifThen predicates' inner', ?_, ?_⟩
      · exact (ofTokens_ifThen_eq_ok_iff hif hothers).2
          ⟨predicates', inner', hpredicates', hinner', rfl⟩
      · rw [outline, outline, hlength, houtline]
  | ifThenElse hif hclauses _ _ ihBody ihOther =>
    cases h with
    | cons hhead hrest =>
      obtain ⟨predicates, inner, other, hpredicates, hinner, hother, rfl⟩ :=
        (ofTokens_ifThenElse_eq_ok_iff hif hclauses).1 haction
      obtain ⟨⟨condition', body', otherwise'⟩, hothers, hcondition, hbody, hotherwise⟩ :=
        Clauses.ofTokens_alike hrest hclauses
      cases hotherwise with
      | @some _ rest' hsecond =>
        obtain ⟨predicates', hpredicates', hlength⟩ :=
          Predicate.listOfTokens_alike haccepting hcondition hpredicates
        obtain ⟨inner', hinner', houtline⟩ := ihBody hbody hinner
        obtain ⟨other', hother', houtline'⟩ := ihOther hsecond hother
        rw [← hhead.isKeyword] at hif
        refine ⟨.ifThenElse predicates' inner' other', ?_, ?_⟩
        · exact (ofTokens_ifThenElse_eq_ok_iff hif hothers).2
            ⟨predicates', inner', other', hpredicates', hinner', hother', rfl⟩
        · rw [outline, outline, hlength, houtline, houtline']

/-- More tokens at the end make an action with another outline. They are
words of its last leaf. -/
theorem outline_ne_of_append {platform : Platform φ ε} {tokens others extra : List Token}
    {action other : Action α} (h : AllAlike tokens others) (hextra : extra ≠ [])
    (hother : Derives platform others other)
    (haction : Derives platform (tokens ++ extra) action) :
    action.outline ≠ other.outline := by
  -- With the same outline, both have the extra tokens in their last part.
  induction hother generalizing tokens action with
  | leaf =>
    cases h with
    | @cons name _ args _ _ hrest =>
      generalize htokens : name :: args ++ extra = whole at haction
      intro houtline
      cases haction with
      | leaf _ _ _ =>
        -- The last part is the words of a leaf, and there are more of them.
        obtain ⟨rfl, rfl⟩ := List.cons.inj htokens
        have hlength := congrArg List.length (Outline.leaf.inj houtline).2
        have hsame := List.Forall₂.length_eq hrest
        have hpositive : 0 < extra.length := List.length_pos_iff.2 hextra
        simp only [List.append_eq, List.length_map, List.length_append] at hlength
        omega
      | ifThen => cases houtline
      | ifThenElse => cases houtline
  | ifThen _ hthen' _ _ hct' _ _ _ _ ih =>
    cases h with
    | @cons ifWord _ rest _ _ hrest =>
      generalize htokens : ifWord :: rest ++ extra = whole at haction
      intro houtline
      cases haction with
      | leaf => cases houtline
      | ifThenElse => cases houtline
      | ifThen _ hthen _ _ hct _ _ _ hbody =>
        -- The first `THEN` stands in the same place, so the rest is longer.
        obtain ⟨condition, tail, rfl, hcondition, htail⟩ := (AllAlike.symm hrest).exists_append
        cases htail with
        | @cons _ thenWord _ body hword hbodies =>
          have hthen₂ : thenWord.isKeyword .then := (hword.isKeyword .then).trans hthen'
          have hlacks : Token.Lacks .then condition := hcondition.lacks hct'
          have hrest := (List.cons.inj htokens).2
          rw [List.append_eq, List.append_assoc, List.cons_append] at hrest
          obtain ⟨-, rfl⟩ := Token.cut_unique hrest hthen₂ hthen hlacks hct
          exact ih (AllAlike.symm hbodies) hbody (Outline.ifThen.inj houtline).2
  | ifThenElse _ hthen' helse' hcne' hbne' hct' hce' hbe' _ _ _ _ ih =>
    cases h with
    | @cons ifWord _ rest _ _ hrest =>
      generalize htokens : ifWord :: rest ++ extra = whole at haction
      intro houtline
      cases haction with
      | leaf => cases houtline
      | ifThen => cases houtline
      | ifThenElse _ hthen helse hcne hbne hct hce hbe _ _ hsecond =>
        -- So does the first `ELSE`.
        obtain ⟨first, tail, rfl, hfirst, htail⟩ := (AllAlike.symm hrest).exists_append
        cases htail with
        | @cons _ elseWord _ second hword hseconds =>
          have helse₂ : elseWord.isKeyword .else := (hword.isKeyword .else).trans helse'
          have hdivides' : Clauses.Divides _ _ _ _ := ⟨rfl, hthen', hcne', hbne', hct', hce', hbe'⟩
          have hdivides : Clauses.Divides _ _ _ _ := ⟨rfl, hthen, hcne, hbne, hct, hce, hbe⟩
          have hrest := (List.cons.inj htokens).2
          rw [List.append_eq, List.append_assoc, List.cons_append] at hrest
          obtain ⟨-, rfl⟩ := Token.cut_unique hrest helse₂ helse
            (hfirst.lacks hdivides'.lacks_else) hdivides.lacks_else
          exact ih (AllAlike.symm hseconds) hsecond (Outline.ifThenElse.inj houtline).2.2

end Action

/-! ### Rules -/

namespace Rule

theorem predicatesOfTokens_alike {platform : Platform φ ε} (haccepting : platform.Accepting)
    {tokens others : Option (List Token)} (h : Option.Rel AllAlike tokens others)
    {predicates : List Predicate}
    (hpredicates : predicatesOfTokens platform tokens = .ok predicates) :
    ∃ predicates', predicatesOfTokens platform others = .ok predicates'
      ∧ predicates'.length = predicates.length := by
  cases h with
  | none => exact ⟨predicates, hpredicates, rfl⟩
  | some h =>
    cases h with
    | nil => cases hpredicates
    | cons hhead hrest =>
      exact Predicate.listOfTokens_alike haccepting (.cons hhead hrest) hpredicates

/-- Last lines that are alike name the same event when flat, with as
many predicates. -/
theorem triggerOfTokens_alike {platform : Platform φ ε} (haccepting : platform.Accepting)
    {block other : Block} (haction : AllAlike block.action other.action)
    (honLine : AllAlike block.onLine other.onLine) {trigger : String × List Predicate}
    (htrigger : triggerOfTokens platform block = .ok trigger) :
    ∃ trigger', triggerOfTokens platform other = .ok trigger'
      ∧ flat trigger'.1 = flat trigger.1 ∧ trigger'.2.length = trigger.2.length := by
  obtain ⟨keyword, rest, heq, hkeyword, hne, hevent, hpredicates, hname⟩ :=
    triggerOfTokens_eq_ok_iff.1 htrigger
  rw [heq] at honLine
  generalize hother : other.onLine = onLine' at honLine
  cases honLine with
  | @cons _ keyword' _ rest' hhead hrest =>
    obtain ⟨hevents, hclauses⟩ := eventClause_forall₂ hrest
    obtain ⟨predicates', hpredicates', hlength⟩ :=
      predicatesOfTokens_alike haccepting hclauses hpredicates
    rw [← hhead.isKeyword] at hkeyword
    -- What is alike to something that is there is there.
    have hne' : other.action ≠ [] := by
      intro hnil
      rw [hnil] at haction
      exact hne (List.forall₂_nil_right_iff.1 haction)
    have hevent' : (eventClause rest').1 ≠ [] := by
      intro hnil
      rw [hnil] at hevents
      exact hevent (List.forall₂_nil_right_iff.1 hevents)
    refine ⟨(Token.phrase (eventClause rest').1, predicates'), ?_, ?_, hlength⟩
    · exact triggerOfTokens_eq_ok_iff.2
        ⟨keyword', rest', hother, hkeyword, hne', hevent', hpredicates', rfl⟩
    · rw [hname, AllAlike.flat_phrase hevents]

/-- Blocks that are alike, and divided in the same place, make rules
that differ in texts and lines. -/
theorem ofBlock_alike {platform : Platform φ ε} (haccepting : platform.Accepting)
    {tokens others : List Token} (hbare : Action.BareNames (Block.ofTokens tokens).action)
    (haction : AllAlike (Block.ofTokens tokens).action (Block.ofTokens others).action)
    (honLine : AllAlike (Block.ofTokens tokens).onLine (Block.ofTokens others).onLine)
    {rule : Rule α} (hrule : ofBlock platform tokens = .ok rule) :
    ∃ rule', ofBlock platform others = .ok rule' ∧ flat rule'.event = flat rule.event
      ∧ rule'.predicates.length = rule.predicates.length
      ∧ rule'.action.outline = rule.action.outline := by
  obtain ⟨htrigger, hread, -⟩ := ofBlock_eq_ok_iff.1 hrule
  obtain ⟨⟨event', predicates'⟩, htrigger', hevent, hlength⟩ :=
    triggerOfTokens_alike haccepting haction honLine htrigger
  obtain ⟨action', hread', houtline⟩ := Action.ofTokens_alike haccepting hbare haction hread
  refine ⟨⟨event', action', predicates', some (Block.ofTokens others).line⟩, ?_, hevent, hlength,
    houtline⟩
  exact ofBlock_eq_ok_iff.2 ⟨htrigger', hread', rfl⟩

end Rule

end EventRules

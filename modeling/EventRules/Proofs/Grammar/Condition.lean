import EventRules.Script.Grammar.Predicate

/-!
# `EventRules.Proofs.Grammar.Condition`: keywords as separators

A keyword divides the tokens around it, and the reader always takes the
first one. So each cut is the only one whose first part lacks the
keyword, which turns a scan for a keyword into a rule of a grammar.

* `Token.cutAt_eq_some_iff` and `Token.cutAt_eq_none_iff` say this of a
  single cut.
* `Predicate.listOfTokens_eq_ok_iff` says it of a condition: reading one
  is deriving it by the rules of `Predicate.Conjunction`.
-/

set_option autoImplicit false

namespace EventRules

/-! ### Results -/

/-- A computation in two steps succeeds when both do, the second on the
result of the first. -/
theorem bind_eq_ok_iff {ε β γ : Type} {first : Except ε β} {next : β → Except ε γ}
    {result : γ} :
    (first >>= next) = .ok result ↔ ∃ b, first = .ok b ∧ next b = .ok result := by
  cases first with
  | error e =>
    constructor
    · intro h
      cases h
    · rintro ⟨b, hb, -⟩
      cases hb
  | ok b =>
    constructor
    · exact fun h => ⟨b, rfl, h⟩
    · rintro ⟨b', hb, h⟩
      cases hb
      exact h

theorem map_eq_ok_iff {ε β γ : Type} {f : β → γ} {first : Except ε β} {result : γ} :
    first.map f = .ok result ↔ ∃ b, first = .ok b ∧ f b = result := by
  cases first with
  | error e => simp [Except.map]
  | ok b => simp [Except.map]

/-! ### Cutting at a keyword -/

namespace Token

/-- No token is the keyword. -/
def Lacks (keyword : Keyword) (tokens : List Token) : Prop :=
  ∀ token ∈ tokens, token.isKeyword keyword = false

theorem lacks_nil (keyword : Keyword) : Lacks keyword [] := by
  intro token h
  cases h

theorem lacks_cons {keyword : Keyword} {token : Token} {rest : List Token} :
    Lacks keyword (token :: rest)
      ↔ token.isKeyword keyword = false ∧ Lacks keyword rest := by
  simp only [Lacks, List.forall_mem_cons]

theorem lacks_append {keyword : Keyword} {first second : List Token} :
    Lacks keyword (first ++ second) ↔ Lacks keyword first ∧ Lacks keyword second := by
  simp only [Lacks, List.forall_mem_append]

/-- A token is one keyword at most. -/
theorem keyword_unique {token : Token} {k l : Keyword} (hk : token.isKeyword k)
    (hl : token.isKeyword l) : k = l := by
  simp only [isKeyword, Text.equalIgnoringCase, Bool.and_eq_true, beq_iff_eq] at hk hl
  have h : k.text.toList.map Char.toLower = l.text.toList.map Char.toLower :=
    hk.2.symm.trans hl.2
  -- No two keywords are spelled alike, even in lower case.
  revert h
  cases k <;> cases l <;> decide

/-- A keyword is not another one. -/
theorem isKeyword_of_ne {token : Token} {k l : Keyword} (hk : token.isKeyword k)
    (hne : k ≠ l) : token.isKeyword l = false := by
  rw [Bool.eq_false_iff]
  exact fun hl => hne (keyword_unique hk hl)

/-- A cut takes place at the first occurrence of the keyword. -/
theorem cutAt_eq_some_iff {keyword : Keyword} {tokens before after : List Token} :
    cutAt keyword tokens = some (before, after)
      ↔ ∃ word, tokens = before ++ word :: after ∧ word.isKeyword keyword
          ∧ Lacks keyword before := by
  induction tokens generalizing before with
  | nil => simp [cutAt]
  | cons token rest ih =>
    rw [cutAt]
    by_cases hword : token.isKeyword keyword
    · -- The cut is here, and a longer first part would hold the keyword.
      rw [if_pos hword]
      constructor
      · intro h
        obtain ⟨rfl, rfl⟩ := Prod.mk.inj (Option.some.inj h)
        exact ⟨token, rfl, hword, lacks_nil keyword⟩
      · rintro ⟨word, h, -, hlacks⟩
        cases before with
        | nil =>
          obtain ⟨rfl, rfl⟩ := List.cons.inj h
          rfl
        | cons head before =>
          obtain ⟨rfl, -⟩ := List.cons.inj h
          rw [(lacks_cons.1 hlacks).1] at hword
          cases hword
    · -- The cut is further on, and the first part begins with this token.
      rw [if_neg hword, Option.map_eq_some_iff]
      rw [Bool.not_eq_true] at hword
      constructor
      · rintro ⟨⟨b, a⟩, hcut, h⟩
        obtain ⟨rfl, rfl⟩ := Prod.mk.inj h
        obtain ⟨word, rfl, hkey, hlacks⟩ := ih.1 hcut
        exact ⟨word, rfl, hkey, lacks_cons.2 ⟨hword, hlacks⟩⟩
      · rintro ⟨word, h, hkey, hlacks⟩
        cases before with
        | nil =>
          obtain ⟨rfl, -⟩ := List.cons.inj h
          rw [hkey] at hword
          cases hword
        | cons head before =>
          obtain ⟨rfl, rfl⟩ := List.cons.inj h
          exact ⟨(before, after), ih.2 ⟨word, rfl, hkey, (lacks_cons.1 hlacks).2⟩, rfl⟩

/-- The first occurrence of a keyword is the only one with none before
it. -/
theorem cut_unique {keyword : Keyword} {before after before' after' : List Token}
    {word word' : Token} (h : before ++ word :: after = before' ++ word' :: after')
    (hword : word.isKeyword keyword) (hword' : word'.isKeyword keyword)
    (hlacks : Lacks keyword before) (hlacks' : Lacks keyword before') :
    before = before' ∧ after = after' := by
  have hcut : cutAt keyword (before ++ word :: after) = some (before, after) :=
    cutAt_eq_some_iff.2 ⟨word, rfl, hword, hlacks⟩
  have hcut' : cutAt keyword (before ++ word :: after) = some (before', after') :=
    cutAt_eq_some_iff.2 ⟨word', h, hword', hlacks'⟩
  exact Prod.mk.inj (Option.some.inj (hcut.symm.trans hcut'))

/-- There is no cut where there is no keyword. -/
theorem cutAt_eq_none_iff {keyword : Keyword} {tokens : List Token} :
    cutAt keyword tokens = none ↔ Lacks keyword tokens := by
  induction tokens with
  | nil => simp [cutAt, Lacks]
  | cons token rest ih =>
    rw [cutAt]
    rw [lacks_cons]
    by_cases hword : token.isKeyword keyword
    · simp [hword]
    · simp [hword, ih]

end Token

/-! ### Conditions -/

namespace Predicate

variable {φ ε : Type}

/-- The grammar of conditions: predicates with one `AND` between any
two. -/
inductive Conjunction (platform : Platform φ ε) : List Token → List Predicate → Prop where
  /-- The last predicate. -/
  | last {part : List Token} {predicate : Predicate} :
      Token.Lacks .and part →
      ofTokens platform part = .ok predicate →
      Conjunction platform part [predicate]
  /-- A predicate with others after it. -/
  | more {part : List Token} {predicate : Predicate} {word : Token} {rest : List Token}
      {predicates : List Predicate} :
      Token.Lacks .and part →
      ofTokens platform part = .ok predicate →
      word.isKeyword .and →
      Conjunction platform rest predicates →
      Conjunction platform (part ++ word :: rest) (predicate :: predicates)

/-- A condition without the keyword is a single part, and any other is
its first part, the keyword and the rest. -/
theorem cut_and (tokens : List Token) :
    Token.Lacks .and tokens
      ∨ ∃ part word rest, tokens = part ++ word :: rest ∧ word.isKeyword .and
          ∧ Token.Lacks .and part := by
  cases hcut : Token.cutAt .and tokens with
  | none => exact .inl (Token.cutAt_eq_none_iff.1 hcut)
  | some cut =>
    obtain ⟨word, htokens, hword, hlacks⟩ := Token.cutAt_eq_some_iff.1 hcut
    exact .inr ⟨cut.1, word, cut.2, htokens, hword, hlacks⟩

theorem listOfTokens_of_lacks {platform : Platform φ ε} {tokens : List Token}
    (h : Token.Lacks .and tokens) :
    listOfTokens platform tokens
      = (do let predicate ← ofTokens platform tokens; return [predicate]) := by
  rw [listOfTokens, List.splitOnP_eq_singleton h]
  show [tokens].mapM (ofTokens platform) = _
  rw [List.mapM_cons]
  rfl

theorem listOfTokens_append {platform : Platform φ ε} {part rest : List Token}
    {word : Token} (h : Token.Lacks .and part) (hword : word.isKeyword .and) :
    listOfTokens platform (part ++ word :: rest)
      = (do
          let predicate ← ofTokens platform part
          let predicates ← listOfTokens platform rest
          return predicate :: predicates) := by
  rw [listOfTokens, List.splitOnP_append_cons_of_forall_mem h word hword, List.mapM_cons]
  rfl

/-- Reading a condition is deriving it. -/
theorem listOfTokens_eq_ok_iff {platform : Platform φ ε} {tokens : List Token}
    {predicates : List Predicate} :
    listOfTokens platform tokens = .ok predicates
      ↔ Conjunction platform tokens predicates := by
  constructor
  · intro h
    -- By induction on the number of tokens, since the rest after the
    -- first `AND` is shorter than the whole.
    induction hn : tokens.length using Nat.strongRecOn
      generalizing tokens predicates with
    | ind n ih =>
      rcases cut_and tokens with hlacks | ⟨part, word, rest, rfl, hword, hlacks⟩
      · rw [listOfTokens_of_lacks hlacks] at h
        obtain ⟨predicate, hpart, h⟩ := bind_eq_ok_iff.1 h
        cases h
        exact .last hlacks hpart
      · rw [listOfTokens_append hlacks hword] at h
        obtain ⟨predicate, hpart, h⟩ := bind_eq_ok_iff.1 h
        obtain ⟨others, hrest, h⟩ := bind_eq_ok_iff.1 h
        cases h
        have hlt : rest.length < n := by
          rw [← hn, List.length_append, List.length_cons]
          omega
        exact .more hlacks hpart hword (ih rest.length hlt hrest rfl)
  · intro h
    -- Each rule is one part of the division.
    induction h with
    | last hlacks hpart =>
      rw [listOfTokens_of_lacks hlacks, hpart]
      rfl
    | more hlacks hpart hword _ ih =>
      rw [listOfTokens_append hlacks hword, hpart, ih]
      rfl

end Predicate

end EventRules

import EventRules.Proofs.Grammar.Rule

/-!
# `EventRules.Proofs.Grammar.Keywords`: lists with the same keywords

All structure of a script is found by looking for keywords. So two lists
of tokens that go together one by one, with the same keywords in the same
places, are divided in the same places as well, whatever else their
tokens have in common.

`Token.KeepsKeywords R` says that the relation `R` between two tokens is
of this kind. For lists that are related by such an `R`, one by one:

* `List.Forall₂.cutAt`: a cut is found in the same place.
* `Clauses.ofTokens_forall₂`: conditionals have related parts.
* `eventClause_forall₂`: so have the last lines of rules.
* `splitOnP_forall₂` and `divide_same_forall₂`: a division at separators,
  or where a test first fails, has related pieces.
-/

set_option autoImplicit false

/-- The part that is related to a part. -/
theorem List.Forall₂.exists_append {β γ : Type} {R : β → γ → Prop} {first second : List β}
    {others : List γ} (h : List.Forall₂ R (first ++ second) others) :
    ∃ first' second', others = first' ++ second' ∧ List.Forall₂ R first first'
      ∧ List.Forall₂ R second second' := by
  induction first generalizing others with
  | nil => exact ⟨[], others, rfl, .nil, h⟩
  | cons x rest ih =>
    cases h with
    | cons hhead hrest =>
      obtain ⟨first', second', rfl, hfirst, hsecond⟩ := ih hrest
      exact ⟨_ :: first', second', rfl, .cons hhead hfirst, hsecond⟩

namespace EventRules

/-! ### Keywords -/

/-- Related tokens are the same keywords. -/
class Token.KeepsKeywords (R : Token → Token → Prop) : Prop where
  isKeyword_eq : ∀ {token other : Token}, R token other → ∀ keyword,
    other.isKeyword keyword = token.isKeyword keyword

/-- A keyword is a word, so the text of a group makes no difference. -/
theorem Token.isKeyword_congr {token other : Token} (hkind : other.kind = token.kind)
    (htext : token.kind ≠ .group → other.text = token.text) (keyword : Keyword) :
    other.isKeyword keyword = token.isKeyword keyword := by
  rw [isKeyword, isKeyword, hkind]
  by_cases hword : token.kind = .word
  · rw [htext (by simp [hword])]
  · simp [hword]

end EventRules

namespace List.Forall₂

open EventRules

variable {R : Token → Token → Prop} [Token.KeepsKeywords R] {tokens others : List Token}

/-- Where a keyword is lacking, it is lacking in both lists. -/
theorem lacks (h : List.Forall₂ R tokens others) {keyword : Keyword}
    (hlacks : Token.Lacks keyword tokens) : Token.Lacks keyword others := by
  induction h with
  | nil => exact hlacks
  | cons hhead _ ih =>
    rw [Token.lacks_cons] at hlacks ⊢
    exact ⟨(Token.KeepsKeywords.isKeyword_eq hhead keyword).trans hlacks.1, ih hlacks.2⟩

/-- A cut is found in the same place, or in neither list. -/
theorem cutAt (h : List.Forall₂ R tokens others) (keyword : Keyword) :
    Option.Rel (fun cut cut' => List.Forall₂ R cut.1 cut'.1 ∧ List.Forall₂ R cut.2 cut'.2)
      (Token.cutAt keyword tokens) (Token.cutAt keyword others) := by
  induction h with
  | nil => exact .none
  | @cons token other rest rest' hhead hrest ih =>
    rw [Token.cutAt, Token.cutAt, Token.KeepsKeywords.isKeyword_eq hhead keyword]
    by_cases hkey : token.isKeyword keyword
    · rw [if_pos hkey, if_pos hkey]
      exact .some ⟨.nil, hrest⟩
    · rw [if_neg hkey, if_neg hkey]
      generalize Token.cutAt keyword rest = cut at ih ⊢
      generalize Token.cutAt keyword rest' = cut' at ih ⊢
      cases ih with
      | none => exact .none
      | some hcut => exact .some ⟨.cons hhead hcut.1, hcut.2⟩

end List.Forall₂

namespace EventRules

variable {R : Token → Token → Prop} [Token.KeepsKeywords R] {tokens others : List Token}

/-! ### Parts -/

namespace Clauses

theorem branches_forall₂ {first : List Token} {otherwise : Option (List Token)}
    (h : List.Forall₂ R tokens others) (hbranches : branches tokens = .ok (first, otherwise)) :
    ∃ first' otherwise', branches others = .ok (first', otherwise') ∧ List.Forall₂ R first first'
      ∧ Option.Rel (List.Forall₂ R) otherwise otherwise' := by
  have hcut := h.cutAt .else
  rw [branches] at hbranches ⊢
  generalize Token.cutAt .else tokens = cut at hcut hbranches
  generalize Token.cutAt .else others = cut' at hcut ⊢
  cases hcut with
  | none =>
    cases hbranches
    exact ⟨others, none, rfl, h, .none⟩
  | @some cut cut' hparts =>
    obtain ⟨before, after⟩ := cut
    obtain ⟨before', after'⟩ := cut'
    obtain ⟨hbefore, hafter⟩ := hparts
    cases hafter with
    | nil => cases hbranches
    | cons hhead hrest =>
      cases hbranches
      exact ⟨before', _, rfl, hbefore, .some (.cons hhead hrest)⟩

/-- Conditionals with the same keywords have related parts. -/
theorem ofTokens_forall₂ {clauses : Clauses} (h : List.Forall₂ R tokens others)
    (hclauses : ofTokens tokens = .ok clauses) :
    ∃ clauses', ofTokens others = .ok clauses'
      ∧ List.Forall₂ R clauses.condition clauses'.condition
      ∧ List.Forall₂ R clauses.body clauses'.body
      ∧ Option.Rel (List.Forall₂ R) clauses.otherwise clauses'.otherwise := by
  obtain ⟨first, word, hbranches, hdivides⟩ := ofTokens_eq_ok hclauses
  obtain ⟨first', otherwise', hbranches', hfirst, hotherwise⟩ := branches_forall₂ h hbranches
  rw [hdivides.tokens_eq] at hfirst
  obtain ⟨condition', rest', rfl, hcondition, hrest⟩ := hfirst.exists_append
  cases hrest with
  | @cons _ word' _ body' hword hbody =>
    -- The parts that are related to the parts divide the other tokens too.
    have hdivides' : Divides (condition' ++ word' :: body') condition' word' body' := by
      refine ⟨rfl, ?_, ?_, ?_, hcondition.lacks hdivides.condition_then,
        hcondition.lacks hdivides.condition_else, hbody.lacks hdivides.body_else⟩
      · rw [Token.KeepsKeywords.isKeyword_eq hword]
        exact hdivides.isThen
      · rintro rfl
        exact hdivides.condition_ne (List.forall₂_nil_right_iff.1 hcondition)
      · rintro rfl
        exact hdivides.body_ne (List.forall₂_nil_right_iff.1 hbody)
    exact ⟨_, ofTokens_of_branches hbranches' hdivides', hcondition, hbody, hotherwise⟩

end Clauses

/-- Last lines with the same keywords have related parts. -/
theorem eventClause_forall₂ (h : List.Forall₂ R tokens others) :
    List.Forall₂ R (eventClause tokens).1 (eventClause others).1
      ∧ Option.Rel (List.Forall₂ R) (eventClause tokens).2 (eventClause others).2 := by
  have hcut := h.cutAt .with
  rw [eventClause, eventClause]
  generalize Token.cutAt .with tokens = cut at hcut ⊢
  generalize Token.cutAt .with others = cut' at hcut ⊢
  cases hcut with
  | none => exact ⟨h, .none⟩
  | some hparts => exact ⟨hparts.1, .some hparts.2⟩

/-! ### Pieces -/

/-- Lists with the same separators are divided into related pieces. -/
theorem splitOnP_forall₂ {β γ : Type} {R : β → γ → Prop} {p : β → Bool} {q : γ → Bool}
    (hsame : ∀ x y, R x y → q y = p x) {xs : List β} {ys : List γ} (h : List.Forall₂ R xs ys) :
    List.Forall₂ (List.Forall₂ R) (xs.splitOnP p) (ys.splitOnP q) := by
  induction h with
  | nil => exact .cons .nil .nil
  | @cons x y xs ys hhead _ ih =>
    rw [List.splitOnP_cons_eq_if_modifyHead, List.splitOnP_cons_eq_if_modifyHead, hsame x y hhead]
    by_cases hp : p x
    · rw [if_pos hp, if_pos hp]
      exact .cons .nil ih
    · rw [if_neg hp, if_neg hp]
      -- The element goes to the piece that the rest begins with.
      generalize xs.splitOnP p = pieces at ih ⊢
      generalize ys.splitOnP q = pieces' at ih ⊢
      cases ih with
      | nil => exact .nil
      | cons hfirst hothers => exact .cons (.cons hhead hfirst) hothers

/-- Lists that are divided where a test first fails have related parts,
if the test tells related elements from others in the same way. -/
theorem divide_same_forall₂ {β γ : Type} {R : β → γ → Prop} {p : β → Bool} {q : γ → Bool}
    (hsame : ∀ x y, R x y → q y = p x) {xs : List β} {ys : List γ} (h : List.Forall₂ R xs ys) :
    List.Forall₂ R (xs.takeWhile p) (ys.takeWhile q)
      ∧ List.Forall₂ R (xs.dropWhile p) (ys.dropWhile q) := by
  induction h with
  | nil => exact ⟨.nil, .nil⟩
  | @cons x y xs ys hhead hrest ih =>
    rw [List.takeWhile_cons, List.takeWhile_cons, List.dropWhile_cons, List.dropWhile_cons,
      hsame x y hhead]
    by_cases hp : p x
    · rw [if_pos hp, if_pos hp, if_pos hp, if_pos hp]
      exact ⟨.cons hhead ih.1, ih.2⟩
    · rw [if_neg hp, if_neg hp, if_neg hp, if_neg hp]
      exact ⟨.nil, .cons hhead hrest⟩

end EventRules

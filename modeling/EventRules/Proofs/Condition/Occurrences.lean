import EventRules.Condition.Comparator
import EventRules.Proofs.Condition.ListForm

/-!
# `EventRules.Proofs.Condition.Occurrences`: a text in a longer one

A comparator on text puts both sides into lower case as a whole. So a value
that has the script's text at its front, at its end or inside need not be
found to have it: a capital sigma that ends the script's text is a final
sigma there, and is none in the value if a letter comes after it.

* `isPrefixOf_lower_iff`, `isSuffixOf_lower_iff` and `occursIn_lower`: what
  is left of an occurrence in lower case depends on the sigmas alone.
* `keepsSigma_before_iff` and `keepsSigma_after_iff`: at the front and at
  the end of a value they change only where a sigma and a letter meet.
* `Comparator.compare_occurrence` says so of `PREFIX`, `POSTFIX` and
  `CONTAINS`, and `Comparator.compare_occurrence_finalSigma` has a case
  of each that fails.
-/

set_option autoImplicit false

namespace EventRules

namespace Text

/-! ### Sigmas at the ends -/

/-- Whether the character is a mark that is passed over in the search for a
letter. -/
def isIgnorable (c : Char) : Bool :=
  inRanges ignorableRanges c

/-- The text ends in a capital sigma that has a letter before it, but for
marks that are passed over. -/
def EndsInSigma (text : List Char) : Prop :=
  ∃ first rest, text = first ++ 'Σ' :: rest ∧ meetsLetter first.reverse ∧ rest.all isIgnorable

/-- The text begins with a capital sigma that has no letter after it, but
for marks that are passed over. -/
def BeginsWithSigma (text : List Char) : Prop :=
  ∃ first rest, text = first ++ 'Σ' :: rest ∧ first.all isIgnorable ∧ meetsLetter rest = false

/-- The search for a letter goes on after marks that are passed over, and
ends at anything else. -/
theorem meetsLetter_append (cs ds : List Char) :
    meetsLetter (cs ++ ds) = if cs.all isIgnorable then meetsLetter ds else meetsLetter cs := by
  have hnone : cs.find? (!inRanges ignorableRanges ·) = none ↔ cs.all isIgnorable := by
    rw [List.find?_eq_none, List.all_eq_true]
    simp [isIgnorable]
  rw [meetsLetter, meetsLetter, meetsLetter, List.find?_append]
  cases hfind : cs.find? (!inRanges ignorableRanges ·) with
  | none =>
    rw [if_pos (hnone.1 hfind)]
    rfl
  | some c =>
    rw [if_neg fun hall => Option.some_ne_none c (hfind.symm.trans (hnone.2 hall))]
    rfl

theorem meetsLetter_of_all {cs : List Char} (h : cs.all isIgnorable) : meetsLetter cs = false := by
  have happend := meetsLetter_append cs []
  rw [List.append_nil, if_pos h] at happend
  exact happend

theorem lowerSigma_inj {before after before' after' : List Char} :
    lowerSigma before after = lowerSigma before' after'
      ↔ (meetsLetter before && !meetsLetter after) = (meetsLetter before' && !meetsLetter after') := by
  rw [lowerSigma, lowerSigma]
  cases meetsLetter before && !meetsLetter after <;>
    cases meetsLetter before' && !meetsLetter after' <;> decide

/-- What comes after a text changes its sigmas only if it begins with a
letter and they end in one. -/
theorem keepsSigma_before_iff {text after : List Char} :
    KeepsSigma [] text after ↔ ¬ (EndsInSigma text ∧ meetsLetter after) := by
  constructor
  · intro h ⟨⟨first, rest, htext, hletter, hrest⟩, hafter⟩
    have hsigma := lowerSigma_inj.1 (h first rest htext)
    rw [List.reverse_nil, List.append_nil, meetsLetter_append, if_pos hrest, hafter, hletter,
      meetsLetter_of_all hrest] at hsigma
    cases hsigma
  · intro h first rest htext
    rw [lowerSigma_inj, List.reverse_nil, List.append_nil, meetsLetter_append]
    by_cases hrest : rest.all isIgnorable
    · rw [if_pos hrest, meetsLetter_of_all hrest]
      -- No letter before the sigma, or none after the text.
      cases hletter : meetsLetter first.reverse with
      | false => rfl
      | true =>
        cases hafter : meetsLetter after with
        | false => rfl
        | true => exact absurd ⟨⟨first, rest, htext, hletter, hrest⟩, hafter⟩ h
    · rw [if_neg hrest]

/-- What comes before a text changes its sigmas only if it ends in a letter
and they are where the text begins. -/
theorem keepsSigma_after_iff {before text : List Char} :
    KeepsSigma before text [] ↔ ¬ (BeginsWithSigma text ∧ meetsLetter before.reverse) := by
  have hall : ∀ first : List Char, first.reverse.all isIgnorable = first.all isIgnorable :=
    fun first => List.all_reverse
  constructor
  · intro h ⟨⟨first, rest, htext, hfirst, hletter⟩, hbefore⟩
    have hsigma := lowerSigma_inj.1 (h first rest htext)
    rw [← hall] at hfirst
    rw [List.append_nil, meetsLetter_append, if_pos hfirst, hbefore, hletter,
      meetsLetter_of_all hfirst] at hsigma
    cases hsigma
  · intro h first rest htext
    rw [lowerSigma_inj, List.append_nil, meetsLetter_append, hall]
    by_cases hfirst : first.all isIgnorable
    · rw [if_pos hfirst, meetsLetter_of_all ((hall first).trans hfirst)]
      -- A letter after the sigma, or none before the text.
      cases hletter : meetsLetter rest with
      | true => simp
      | false =>
        cases hbefore : meetsLetter before.reverse with
        | false => rfl
        | true => exact absurd ⟨⟨first, rest, htext, hfirst, hletter⟩, hbefore⟩ h
    · rw [if_neg hfirst]

/-! ### Lower case of a text in a longer one -/

theorem toList_lower_append (first second : String) :
    (lower (first ++ second)).toList
      = lowerBetween [] first.toList second.toList
        ++ lowerAfter first.toList.reverse second.toList := by
  rw [toList_lower, String.toList_append, lowerAfter_append, List.append_nil]

/-- The lower case of a text is at the front of a longer one's if its
sigmas are the same there. -/
theorem isPrefixOf_lower_iff (p y : String) :
    (lower p).toList.isPrefixOf (lower (p ++ y)).toList ↔ KeepsSigma [] p.toList y.toList := by
  have hlength := length_lowerBetween [] [] [] y.toList p.toList
  have hfront := @List.prefix_append_inj_of_length_eq Char []
    (lowerAfter p.toList.reverse y.toList) _ _ hlength
  rw [List.append_nil] at hfront
  rw [List.isPrefixOf_iff_prefix, toList_lower_append, toList_lower, ← lowerBetween_nil, hfront,
    keepsSigma_iff, lowerBetween_nil]
  constructor
  · intro h
    exact h.1.symm
  · intro h
    exact ⟨h.symm, List.nil_prefix⟩

/-- The lower case of a text is at the end of a longer one's if its sigmas
are the same there. -/
theorem isSuffixOf_lower_iff (x p : String) :
    (lower p).toList.isSuffixOf (lower (x ++ p)).toList ↔ KeepsSigma x.toList p.toList [] := by
  have hlength := length_lowerBetween [] [] x.toList.reverse [] p.toList
  have hback := @List.suffix_append_inj_of_length_eq Char []
    (lowerBetween [] x.toList p.toList) _ _ hlength
  rw [List.nil_append] at hback
  rw [List.isSuffixOf_iff_suffix, toList_lower_append, toList_lower, ← lowerBetween_nil,
    ← lowerBetween_nil, hback, keepsSigma_iff, lowerBetween_nil, lowerBetween_nil]
  constructor
  · intro h
    exact h.2.symm
  · intro h
    exact ⟨List.nil_suffix, h.symm⟩

/-- The lower case of a text is in a longer one's if its sigmas are the
same there. -/
theorem occursIn_lower {x p y : String} (h : KeepsSigma x.toList p.toList y.toList) :
    occursIn (lower p).toList (lower (x ++ p ++ y)).toList := by
  rw [keepsSigma_iff] at h
  rw [occursIn_iff, toList_lower, toList_lower, String.toList_append, String.toList_append,
    List.append_assoc, lowerAfter_append, lowerAfter_append, List.append_nil, h,
    ← List.append_assoc]
  exact List.infix_append _ _ _

end Text

/-! ### Comparators -/

namespace Comparator

open Text

/-- What the comparators made from a text say of values that have the text
at the front, at the end or inside. They find it at the front and at the
end, unless a sigma and a letter meet there. They find it inside at any
rate if its sigmas stay. -/
theorem compare_occurrence (x p y : String) :
    (∃ comparator, Operator.startsWith.read p = .ok comparator
      ∧ (comparator.compare (.string (p ++ y))
          ↔ ¬ (EndsInSigma p.toList ∧ meetsLetter y.toList)))
    ∧ (∃ comparator, Operator.endsWith.read p = .ok comparator
      ∧ (comparator.compare (.string (x ++ p))
          ↔ ¬ (BeginsWithSigma p.toList ∧ meetsLetter x.toList.reverse)))
    ∧ (Literal.items? p = none →
        ∃ comparator, Operator.contains.read p = .ok comparator
          ∧ (KeepsSigma x.toList p.toList y.toList →
              comparator.compare (.string (x ++ p ++ y)))) := by
  refine ⟨⟨.startsWith (lower p), rfl, ?_⟩, ⟨.endsWith (lower p), rfl, ?_⟩, ?_⟩
  · rw [← keepsSigma_before_iff, compare, Value.text]
    exact isPrefixOf_lower_iff p y
  · rw [← keepsSigma_after_iff, compare, Value.text]
    exact isSuffixOf_lower_iff x p
  · intro hlist
    have hread : Operator.contains.read p = .ok (.contains (.text (lower p))) := by
      rw [Operator.read, Needle.ofText, (Literal.items?_lower_eq_none_iff p).2 hlist]
    refine ⟨.contains (.text (lower p)), hread, ?_⟩
    intro hkeeps
    rw [compare, Needle.isIn, Value.text]
    · exact occursIn_lower hkeeps
    · exact nofun

theorem compare_occurrence_space : Literal.items? "ΟΔΥΣ" = none
    ∧ KeepsSigma "Ο ".toList "ΟΔΥΣ".toList " 9".toList
    ∧ ∃ comparator, Operator.contains.read "ΟΔΥΣ" = .ok comparator
      ∧ comparator.compare (.string ("Ο " ++ "ΟΔΥΣ" ++ " 9")) := by
  have hlist : Literal.items? "ΟΔΥΣ" = none := by decide +kernel
  have hkeeps : KeepsSigma "Ο ".toList "ΟΔΥΣ".toList " 9".toList := by decide +kernel
  obtain ⟨comparator, hread, hcompare⟩ := (compare_occurrence "Ο " "ΟΔΥΣ" " 9").2.2 hlist
  exact ⟨hlist, hkeeps, comparator, hread, hcompare hkeeps⟩

/-- A final sigma in the script's text is none where a letter follows. -/
theorem compare_occurrence_finalSigma :
    (∃ comparator, Operator.startsWith.read "ΟΔΥΣ" = .ok comparator
      ∧ comparator.compare (.string ("ΟΔΥΣ" ++ "ΣΕΥΣ")) = false)
    ∧ (∃ comparator, Operator.endsWith.read "Σ" = .ok comparator
      ∧ comparator.compare (.string ("Α" ++ "Σ")) = false)
    ∧ Literal.items? "ΑΣ" = none
    ∧ ∃ comparator, Operator.contains.read "ΑΣ" = .ok comparator
      ∧ comparator.compare (.string ("" ++ "ΑΣ" ++ "Α")) = false := by
  refine ⟨⟨_, rfl, ?_⟩, ⟨_, rfl, ?_⟩, ?_, ⟨_, rfl, ?_⟩⟩
  · decide +kernel
  · decide +kernel
  · decide +kernel
  · decide +kernel

end Comparator

end EventRules

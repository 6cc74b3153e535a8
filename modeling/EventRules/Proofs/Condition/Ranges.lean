import EventRules.Proofs.Condition.Pieces

/-!
# `EventRules.Proofs.Condition.Ranges`: the range between two texts

A range is written with a comma between its bounds, in brackets. So it can be
put together from two numbers as they are written, and there is only one comma
to take it apart at.

* `Literal.range_rangeText`: two numbers in order make a range.
* `Literal.range_rangeText_unique`: whatever range they make has them for
  bounds.

A number may have any blanks at its ends, and a bound only some. So not all
numbers can be put into a range as they are, but all those without such blanks.
-/

set_option autoImplicit false

namespace EventRules

open Text

theorem Numeral.Spells.trimmed {numeral : Numeral} {cs : List Char} (h : numeral.Spells cs) :
    Trimmed cs := by
  rw [← String.toList_ofList (l := cs)] at h ⊢
  exact h.isItem.shape.trimmed

theorem Numeral.Spells.not_mem_comma {numeral : Numeral} {cs : List Char}
    (h : numeral.Spells cs) : ',' ∉ cs := by
  rw [← String.toList_ofList (l := cs)] at h ⊢
  exact h.isItem.not_mem (by decide) rfl

namespace Literal

/-- The range between two texts. -/
def rangeText (low high : String) : String :=
  "[" ++ low ++ "," ++ high ++ "]"

theorem trimChars_rangeText (low high : String) :
    trimChars (rangeText low high).toList
      = '[' :: (low.toList ++ ',' :: (high.toList ++ [']'])) := by
  have hlist : (rangeText low high).toList
      = '[' :: ((low.toList ++ ',' :: high.toList) ++ [']']) := by
    simp only [rangeText, String.toList_append, List.append_assoc, List.cons_append]
    rfl
  rw [hlist, trimChars_bracketed, List.append_assoc, List.cons_append]

/-- Two numerals make a range. -/
theorem spellsRange_rangeText {lo hi : Numeral} {low high : String} (hlow : lo.Spells low.toList)
    (hhigh : hi.Spells high.toList) :
    SpellsRange lo hi (trimChars (rangeText low high).toList) := by
  rw [trimChars_rangeText]
  have hnone : ∀ c ∈ ([] : List Char), isPadding c := List.forall_mem_nil _
  exact .mk hlow hhigh hnone hnone hnone hnone

theorem isBlank_of_isPadding {c : Char} (h : isPadding c) : isBlank c := by
  rcases Bool.or_eq_true_iff.1 h with hindent | hbreak
  · exact isBlank_of_isIndent hindent
  · exact isBlank_of_isBreak hbreak

/-- A numeral with padding is a number. -/
theorem number_of_padded {numeral : Numeral} {text : String} {before cs after : List Char}
    (htext : text.toList = before ++ (cs ++ after)) (h : numeral.Spells cs)
    (hbefore : ∀ c ∈ before, isPadding c) (hafter : ∀ c ∈ after, isPadding c) :
    number text = .ok numeral.toDouble := by
  have htrimmed := h.trimmed
  rw [number_eq_ok_iff, htext, trimChars_append (fun c hc => isBlank_of_isPadding (hbefore c hc))
    htrimmed fun c hc => isBlank_of_isPadding (hafter c hc)]
  exact ⟨numeral, h, rfl⟩

/-- No comma stands in a number. -/
theorem not_mem_comma_of_number {text : String} {x : Double} (h : number text = .ok x) :
    ',' ∉ text.toList := by
  obtain ⟨numeral, hspells, -⟩ := number_eq_ok_iff.1 h
  obtain ⟨before, after, htext, hbefore, hafter, -⟩ := exists_trimChars text.toList
  have hblank : ∀ {blanks : List Char}, (∀ c ∈ blanks, isBlank c) → ',' ∉ blanks := by
    intro blanks hblanks hmem
    cases hblanks ',' hmem
  rw [htext, List.mem_append, List.mem_append, not_or, not_or]
  exact ⟨hblank hbefore, hspells.not_mem_comma, hblank hafter⟩

/-- A range between two numbers has them for bounds. -/
theorem range_rangeText_unique {low high : String} {lo hi : Double} {bounds : Double × Double}
    (hlow : number low = .ok lo) (hhigh : number high = .ok hi)
    (h : range (rangeText low high) = .ok bounds) : bounds = (lo, hi) := by
  obtain ⟨first, second, hspells, -, rfl⟩ := range_eq_ok_iff.1 h
  rw [trimChars_rangeText] at hspells
  generalize hcs : '[' :: (low.toList ++ ',' :: (high.toList ++ [']'])) = cs at hspells
  cases hspells with
  | @mk before after before' after' first' second' hfirst hsecond hbefore hafter hbefore' hafter' =>
    have hsplit : low.toList ++ ',' :: (high.toList ++ [']'])
        = (before ++ (first' ++ after)) ++ ',' :: ((before' ++ (second' ++ after')) ++ [']']) := by
      simpa only [List.append_assoc, List.cons_append, List.cons.injEq, true_and] using hcs
    -- Both sides are cut at the only comma.
    have hrest : ',' ∉ high.toList ++ [']'] := by
      rw [List.mem_append, not_or]
      exact ⟨not_mem_comma_of_number hhigh, by decide⟩
    obtain ⟨hlow', -, hhigh'⟩ :=
      (List.append_cons_inj_of_notMem (not_mem_comma_of_number hlow) hrest).1 hsplit
    have hlo := number_of_padded hlow' hfirst hbefore hafter
    have hhi := number_of_padded (List.append_cancel_right hhigh') hsecond hbefore' hafter'
    rw [hlow] at hlo
    rw [hhigh] at hhi
    rw [Except.ok.inj hlo, Except.ok.inj hhi]

/-- Two numbers in order make a range. -/
theorem range_rangeText {low high : String} {lo hi : Double} (hlow : number low = .ok lo)
    (hhigh : number high = .ok hi) (hle : lo.le hi) (htrimmed : Trimmed low.toList)
    (htrimmed' : Trimmed high.toList) : range (rangeText low high) = .ok (lo, hi) := by
  obtain ⟨numeral, hspells, rfl⟩ := number_eq_ok_iff.1 hlow
  obtain ⟨numeral', hspells', rfl⟩ := number_eq_ok_iff.1 hhigh
  rw [htrimmed.trimChars_eq] at hspells
  rw [htrimmed'.trimChars_eq] at hspells'
  exact range_eq_ok_iff.2 ⟨numeral, numeral', spellsRange_rangeText hspells hspells', hle, rfl⟩

end Literal

end EventRules

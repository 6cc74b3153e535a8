import EventRules.Condition.Literal
import EventRules.Proofs.Grammar.Keywords
import EventRules.Proofs.Text.Cutting
import EventRules.Proofs.Text.Lower
import Mathlib.Data.List.TakeDrop

/-!
# `EventRules.Proofs.Condition.ListForm`: lists in lower case

`CONTAINS` puts its right-hand side into lower case before it looks for a
list there. It finds one in the same texts as it would have before
(`items?_lower_eq_none_iff`): blanks, brackets and commas keep their
places, and what stands between them stays there.

`Recased` is what two texts have in common that differ in nothing else. It
allows one letter to become several, so the texts are not related character
by character.
-/

set_option autoImplicit false

namespace EventRules

open Text

/-! ### Texts of one form -/

/-- The second text has one character or more for each character of the
first. It keeps blanks, brackets and commas, and has no others. -/
inductive Recased : List Char → List Char → Prop
  | nil : Recased [] []
  | mark {c : Char} {cs ds : List Char} (h : isListMark c) (hrest : Recased cs ds) :
      Recased (c :: cs) (c :: ds)
  | letter {c : Char} {cs block ds : List Char} (h : isListMark c = false) (hne : block ≠ [])
      (hblock : ∀ d ∈ block, isListMark d = false) (hrest : Recased cs ds) :
      Recased (c :: cs) (block ++ ds)

theorem recased_lowerAfter (before cs : List Char) : Recased cs (lowerAfter before cs) := by
  induction cs generalizing before with
  | nil => exact .nil
  | cons c cs ih =>
    rw [lowerAfter_cons]
    cases h : isListMark c with
    | true =>
      rw [lowerIn_of_isListMark h]
      exact .mark h (ih _)
    | false =>
      exact .letter h (lowerIn_ne_nil _ _ c) (fun d hd => isListMark_of_mem_lowerIn h hd) (ih _)

namespace Recased

variable {cs ds cs' ds' : List Char}

theorem append (h : Recased cs ds) (h' : Recased cs' ds') : Recased (cs ++ cs') (ds ++ ds') := by
  induction h with
  | nil => exact h'
  | mark hc _ ih => exact .mark hc ih
  | letter hc hne hblock _ ih =>
    rw [List.append_assoc]
    exact .letter hc hne hblock ih

theorem reverse (h : Recased cs ds) : Recased cs.reverse ds.reverse := by
  induction h with
  | nil => exact .nil
  | mark hc _ ih =>
    rw [List.reverse_cons, List.reverse_cons]
    exact ih.append (.mark hc .nil)
  | @letter c cs block ds hc hne hblock _ ih =>
    rw [List.reverse_cons, List.reverse_append]
    have hlast : Recased [c] (block.reverse ++ []) :=
      .letter hc (by simpa using hne) (by simpa using hblock) .nil
    rw [List.append_nil] at hlast
    exact ih.append hlast

theorem isEmpty_eq (h : Recased cs ds) : cs.isEmpty = ds.isEmpty := by
  cases h with
  | nil => rfl
  | mark => rfl
  | letter _ hne =>
    obtain ⟨d, block, rfl⟩ := List.exists_cons_of_ne_nil hne
    rfl

theorem any_isEmpty_eq {pieces pieces' : List (List Char)}
    (h : List.Forall₂ Recased pieces pieces') :
    pieces.any (·.isEmpty) = pieces'.any (·.isEmpty) := by
  induction h with
  | nil => rfl
  | cons hfirst _ ih => rw [List.any_cons, List.any_cons, hfirst.isEmpty_eq, ih]

/-! ### Cutting -/

/-- A text is divided where a test first fails. The test does not tell one
letter from another. -/
theorem divide {p : Char → Bool}
    (hp : ∀ c d, isListMark c = false → isListMark d = false → p c = p d) (h : Recased cs ds) :
    Recased (cs.takeWhile p) (ds.takeWhile p) ∧ Recased (cs.dropWhile p) (ds.dropWhile p) := by
  induction h with
  | nil => exact ⟨.nil, .nil⟩
  | @mark c cs ds hc hrest ih =>
    by_cases hpc : p c
    · rw [List.takeWhile_cons_of_pos hpc, List.takeWhile_cons_of_pos hpc,
        List.dropWhile_cons_of_pos hpc, List.dropWhile_cons_of_pos hpc]
      exact ⟨.mark hc ih.1, ih.2⟩
    · rw [List.takeWhile_cons_of_neg hpc, List.takeWhile_cons_of_neg hpc,
        List.dropWhile_cons_of_neg hpc, List.dropWhile_cons_of_neg hpc]
      exact ⟨.nil, .mark hc hrest⟩
  | @letter c cs block ds hc hne hblock hrest ih =>
    by_cases hpc : p c
    · have hpass : ∀ d ∈ block, p d := by
        intro d hd
        rw [hp d c (hblock d hd) hc]
        exact hpc
      rw [List.takeWhile_cons_of_pos hpc, List.takeWhile_append_of_pos hpass,
        List.dropWhile_cons_of_pos hpc, List.dropWhile_append_of_pos hpass]
      exact ⟨.letter hc hne hblock ih.1, ih.2⟩
    · -- The first of the characters fails the test as well.
      obtain ⟨d, block, rfl⟩ := List.exists_cons_of_ne_nil hne
      have hpd : ¬ p d := by
        rw [hp d c (hblock d List.mem_cons_self) hc]
        exact hpc
      have hwhole := letter hc hne hblock hrest
      rw [List.cons_append] at hwhole ⊢
      rw [List.takeWhile_cons_of_neg hpc, List.takeWhile_cons_of_neg hpd,
        List.dropWhile_cons_of_neg hpc, List.dropWhile_cons_of_neg hpd]
      exact ⟨.nil, hwhole⟩

theorem trimChars (h : Recased cs ds) : Recased (trimChars cs) (trimChars ds) := by
  have hblank : ∀ c d, isListMark c = false → isListMark d = false → isBlank c = isBlank d := by
    intro c d hc hd
    simp only [isListMark, Bool.or_eq_false_iff] at hc hd
    rw [hc.1.1.1, hd.1.1.1]
  have hfront := (h.divide hblank).2
  exact (hfront.reverse.divide hblank).2.reverse

theorem after? {c : Char} (hc : isListMark c) (h : Recased cs ds) :
    Option.Rel Recased (Literal.after? c cs) (Literal.after? c ds) := by
  have hother : ∀ d, isListMark d = false → d ≠ c := by
    intro d hd heq
    rw [heq, hc] at hd
    cases hd
  cases h with
  | nil => exact .none
  | @mark d cs ds hd hrest =>
    rw [Literal.after?, Literal.after?]
    split
    · exact .some hrest
    · exact .none
  | @letter d cs block ds hd hne hblock hrest =>
    obtain ⟨e, block, rfl⟩ := List.exists_cons_of_ne_nil hne
    have he := hblock e List.mem_cons_self
    rw [List.cons_append, Literal.after?, Literal.after?, if_neg (hother d hd),
      if_neg (hother e he)]
    exact .none

/-- A text is cut into pieces at one of the characters that give a list
its form. -/
theorem splitOnP {c : Char} (hc : isListMark c) (h : Recased cs ds) :
    List.Forall₂ Recased (cs.splitOnP (· = c)) (ds.splitOnP (· = c)) := by
  have hother : ∀ d, isListMark d = false → ¬ decide (d = c) = true := by
    intro d hd heq
    rw [decide_eq_true_eq] at heq
    rw [heq, hc] at hd
    cases hd
  induction h with
  | nil => exact .cons .nil .nil
  | @mark d cs ds hd _ ih =>
    rw [List.splitOnP_cons_eq_if_modifyHead, List.splitOnP_cons_eq_if_modifyHead]
    by_cases heq : decide (d = c)
    · rw [if_pos heq, if_pos heq]
      exact .cons .nil ih
    · rw [if_neg heq, if_neg heq]
      generalize cs.splitOnP (· = c) = pieces at ih ⊢
      generalize ds.splitOnP (· = c) = pieces' at ih ⊢
      cases ih with
      | nil => exact .nil
      | cons hfirst hothers => exact .cons (.mark hd hfirst) hothers
  | @letter d cs block ds hd hne hblock _ ih =>
    rw [List.splitOnP_cons_eq_if_modifyHead, if_neg (hother d hd),
      splitOnP_append fun e he => hother e (hblock e he)]
    generalize cs.splitOnP (· = c) = pieces at ih ⊢
    generalize ds.splitOnP (· = c) = pieces' at ih ⊢
    cases ih with
    | nil => exact .nil
    | cons hfirst hothers => exact .cons (.letter hd hne hblock hfirst) hothers

end Recased

/-! ### Lists -/

namespace Literal

/-- A text is in brackets in lower case if it is as it stands. -/
theorem bracketed?_lower (text : String) :
    Option.Rel Recased (bracketed? text) (bracketed? (lower text)) := by
  have htrim : Recased (trimChars text.toList) (trimChars (lower text).toList) := by
    rw [toList_lower]
    exact (recased_lowerAfter [] text.toList).trimChars
  have hafter := htrim.after? (c := '[') rfl
  rw [bracketed?, bracketed?]
  generalize after? '[' (trimChars text.toList) = inside at hafter ⊢
  generalize after? '[' (trimChars (lower text).toList) = inside' at hafter ⊢
  cases hafter with
  | none => exact .none
  | @some cs ds hinside =>
    have hother : ∀ c, isListMark c = false → decide (c ≠ ']') = true := by
      intro c hc
      rw [decide_eq_true_eq]
      rintro rfl
      cases hc
    obtain ⟨hbody, hrest⟩ := hinside.divide fun c d hc hd => (hother c hc).trans (hother d hd).symm
    simp only [Option.bind_eq_bind, Option.bind_some, List.span_eq_takeWhile_dropWhile]
    have hclose := List.head?_dropWhile_not (fun c : Char => decide (c ≠ ']')) cs
    generalize cs.dropWhile (· ≠ ']') = rest at hrest hclose ⊢
    generalize ds.dropWhile (· ≠ ']') = rest' at hrest ⊢
    cases hrest with
    | nil => exact .none
    | @letter c cs block ds hc =>
      -- The rest begins with the closing bracket.
      have hnot : decide (c ≠ ']') = false := hclose
      rw [hother c hc] at hnot
      cases hnot
    | @mark c cs ds _ hend =>
      cases hend with
      | nil => exact .some hbody
      | mark => exact .none
      | letter _ hne =>
        obtain ⟨d, block, rfl⟩ := List.exists_cons_of_ne_nil hne
        exact .none

/-- A text is a list in lower case if it is one as it stands. -/
theorem items?_lower_eq_none_iff (text : String) :
    items? (lower text) = none ↔ items? text = none := by
  have hbody := bracketed?_lower text
  rw [items?, items?]
  generalize bracketed? text = body at hbody ⊢
  generalize bracketed? (lower text) = body' at hbody ⊢
  cases hbody with
  | none => exact Iff.rfl
  | @some cs ds hbody =>
    have hpieces := hbody.splitOnP (c := ',') rfl
    show (if (ds.splitOnP (· = ',')).any (·.isEmpty) then none else some _) = none
      ↔ (if (cs.splitOnP (· = ',')).any (·.isEmpty) then none else some _) = none
    rw [Recased.any_isEmpty_eq hpieces]
    split
    · exact Iff.rfl
    · exact iff_of_false (Option.some_ne_none _) (Option.some_ne_none _)

end Literal

end EventRules

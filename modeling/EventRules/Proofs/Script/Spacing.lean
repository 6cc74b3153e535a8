import EventRules.Proofs.Script.Prints
import Mathlib.Data.List.Basic

/-!
# `EventRules.Proofs.Script.Spacing`: words with gaps between them

`Spaced words cs` says that a text is the words with a run of spaces and tabs
between any two. A script of one line with such a text is read as the words
(`Spaced.texts_content`), so nothing tells how wide the gaps are.

A text that may have gaps at some places falls into words in many ways. What
comes of it when the words are joined again, one space between any two, is
the same text with its gaps drawn together: `Respaced cs ds`. This relation
is stated without the words, so that it follows how the text was put together
and not where the gaps happen to be; `Respaced.exists_spaced` finds the words.
-/

set_option autoImplicit false

namespace EventRules

open Text

namespace Text

/-! ### Gaps -/

/-- The characters are spaces and tabs. There may be none. -/
def IsGap (cs : List Char) : Prop :=
  ∀ c ∈ cs, isIndent c

/-- There are characters, and none of them is a space or a tab. -/
structure IsSolid (cs : List Char) : Prop where
  ne_nil : cs ≠ []
  not_isIndent : ∀ c ∈ cs, ¬ isIndent c

/-- The gap as one space, if there is one at all. -/
def tightGap (gap : List Char) : List Char :=
  if gap.isEmpty then [] else [' ']

theorem IsGap.nil : IsGap [] :=
  List.forall_mem_nil _

theorem IsGap.space : IsGap [' '] :=
  List.forall_mem_singleton.2 rfl

theorem isGap_tightGap (gap : List Char) : IsGap (tightGap gap) := by
  rw [tightGap]
  split
  · exact .nil
  · exact .space

theorem IsSolid.singleton {c : Char} (h : ¬ isIndent c) : IsSolid [c] :=
  ⟨List.cons_ne_nil _ _, List.forall_mem_singleton.2 h⟩

/-! ### Words in a text -/

/-- The text is the words, with a gap between any two. -/
inductive Spaced : List String → List Char → Prop
  | single {word : String} : Spaced [word] word.toList
  | cons {word : String} {words : List String} {gap cs : List Char} (hgap : IsGap gap)
      (hne : gap ≠ []) (hrest : Spaced words cs) :
      Spaced (word :: words) (word.toList ++ (gap ++ cs))

namespace Spaced

variable {words : List String} {cs : List Char}

theorem ne_nil (h : Spaced words cs) : words ≠ [] := by
  cases h <;> exact List.cons_ne_nil _ _

/-- The words hold no other characters than the text. -/
theorem mem (h : Spaced words cs) {word : String} (hword : word ∈ words) {c : Char}
    (hc : c ∈ word.toList) : c ∈ cs := by
  induction h with
  | single => exact List.mem_singleton.1 hword ▸ hc
  | cons _ _ _ ih =>
    rcases List.mem_cons.1 hword with rfl | hmem
    · exact List.mem_append_left _ hc
    · exact List.mem_append_right _ (List.mem_append_right _ (ih hmem))

/-- Words are spaced with one space between any two. -/
theorem intercalate {words : List String} (hne : words ≠ []) :
    Spaced words (" ".intercalate words).toList := by
  induction words with
  | nil => exact absurd rfl hne
  | cons word words ih =>
    cases words with
    | nil =>
      rw [String.intercalate_singleton]
      exact .single
    | cons next words =>
      rw [String.intercalate_cons_cons, String.toList_append, String.toList_append,
        List.append_assoc]
      exact .cons .space (List.cons_ne_nil _ _) (ih (List.cons_ne_nil _ _))

/-- The first word is in front, and the others are in what comes after it. -/
theorem exists_rest {word : String} (h : Spaced (word :: words) cs) :
    ∃ rest, cs = word.toList ++ rest
      ∧ ∀ other ∈ words, ∀ c ∈ other.toList, c ∈ rest := by
  cases h with
  | single => exact ⟨[], (List.append_nil _).symm, List.forall_mem_nil _⟩
  | cons _ _ hrest =>
    exact ⟨_, rfl, fun other hother c hc => List.mem_append_right _ (hrest.mem hother hc)⟩

/-- Characters before the text go to its first word. -/
theorem append_left {word : String} (s : List Char) (h : Spaced (word :: words) cs) :
    Spaced ((String.ofList s ++ word) :: words) (s ++ cs) := by
  cases h with
  | single =>
    have hsingle := @single (String.ofList s ++ word)
    rwa [String.toList_append, String.toList_ofList] at hsingle
  | cons hgap hne hrest =>
    have hcons := @cons (String.ofList s ++ word) _ _ _ hgap hne hrest
    rwa [String.toList_append, String.toList_ofList, List.append_assoc] at hcons

/-- The last word may be a text of words itself. -/
theorem expand {first : List String} {last : String} (h : Spaced (first ++ [last]) cs)
    (hlast : Spaced words last.toList) : Spaced (first ++ words) cs := by
  induction first generalizing cs with
  | nil =>
    cases h with
    | single => exact hlast
    | cons _ _ hrest => exact absurd rfl hrest.ne_nil
  | cons word first ih =>
    generalize htail : first ++ [last] = tail at h
    rw [List.cons_append, htail] at h
    cases h with
    | single => simp at htail
    | cons hgap hne hrest => exact .cons hgap hne (ih (htail ▸ hrest))

/-- The text ends as its last word does. -/
theorem getLast?_eq (h : Spaced words cs) (hwords : ∀ word ∈ words, IsSolid word.toList) :
    words.getLast?.bind (·.toList.getLast?) = cs.getLast? := by
  induction h with
  | single => rfl
  | @cons word words gap cs _ _ hrest ih =>
    rw [List.forall_mem_cons] at hwords
    have hlast := ih hwords.2
    obtain ⟨next, words, rfl⟩ := List.exists_cons_of_ne_nil hrest.ne_nil
    -- There are characters after the gap, those of the next word.
    have hcs : cs ≠ [] := by
      rintro rfl
      obtain ⟨c, hc⟩ := List.exists_mem_of_ne_nil _ (hwords.2 next List.mem_cons_self).ne_nil
      exact List.not_mem_nil (hrest.mem List.mem_cons_self hc)
    rw [List.getLast?_cons_cons, hlast, ← List.append_assoc, List.getLast?_append_of_ne_nil _ hcs]

end Spaced

end Text

/-! ### Reading the words -/

/-- Spaces and tabs before a text are no part of it. -/
theorem Prints.indent_append {text : String} {tokens : List Token} (h : Prints text tokens)
    {gap : List Char} (hgap : IsGap gap) : Prints (String.ofList gap ++ text) tokens := by
  induction gap with
  | nil => exact h
  | cons c gap ih =>
    obtain ⟨hc, hrest⟩ := List.forall_mem_cons.1 hgap
    have hempty : Prints "" [] := ⟨.inl rfl, rfl⟩
    have happend := hempty.append_indent (ih hrest) hc
    -- The space stands between an empty text and what follows it.
    have htext : "" ++ String.singleton c ++ (String.ofList gap ++ text)
        = String.ofList (c :: gap) ++ text := by
      rw [← String.toList_inj]
      simp
    rwa [htext] at happend

/-- A gap keeps two texts apart. -/
theorem Prints.append_gap {first second : String} {tokens others : List Token}
    (h : Prints first tokens) (hsecond : Prints second others) {gap : List Char}
    (hgap : IsGap gap) (hne : gap ≠ []) :
    Prints (first ++ (String.ofList gap ++ second)) (tokens ++ others) := by
  obtain ⟨c, gap, rfl⟩ := List.exists_cons_of_ne_nil hne
  obtain ⟨hc, hrest⟩ := List.forall_mem_cons.1 hgap
  have happend := h.append_indent (hsecond.indent_append hrest) hc
  have htext : first ++ String.singleton c ++ (String.ofList gap ++ second)
      = first ++ (String.ofList (c :: gap) ++ second) := by
    rw [← String.toList_inj]
    simp
  rwa [htext] at happend

namespace Text.Spaced

variable {words : List String} {cs : List Char}

/-- A text of words may stand between other texts. -/
theorem prints (h : Spaced words cs) (hwords : ∀ word ∈ words, IsWord word.toList) :
    Prints (String.ofList cs) (words.map (⟨.word, ·, 0⟩)) := by
  induction h with
  | single =>
    rw [String.ofList_toList]
    exact (List.forall_mem_singleton.1 hwords).prints
  | cons hgap hne _ ih =>
    rw [List.forall_mem_cons] at hwords
    rw [String.ofList_append, String.ofList_append, String.ofList_toList]
    exact hwords.1.prints.append_gap (ih hwords.2) hgap hne

/-- A line is read as its words. -/
theorem texts_content (h : Spaced words cs) (hwords : ∀ word ∈ words, IsWord word.toList) :
    Token.texts (Token.content (tokenize (String.ofList cs))) = words := by
  have hcontent := congrArg Token.texts (h.prints hwords).content_eq
  simp only [contentOf, Token.unplacedContent, Token.texts, List.map_map, Function.comp_def]
    at hcontent
  rw [List.map_id'] at hcontent
  exact hcontent

end Text.Spaced

namespace Text

/-! ### Drawing gaps together -/

/-- The texts differ at most in the width of their gaps, and those of the
second are one space wide. -/
inductive Respaced : List Char → List Char → Prop
  | solid {s : List Char} (h : IsSolid s) : Respaced s s
  | append {s gap cs ds : List Char} (h : IsSolid s) (hgap : IsGap gap) (hrest : Respaced cs ds) :
      Respaced (s ++ (gap ++ cs)) (s ++ (tightGap gap ++ ds))

namespace Respaced

variable {cs ds cs' ds' : List Char}

theorem append_respaced (h : Respaced cs ds) {gap : List Char} (hgap : IsGap gap)
    (h' : Respaced cs' ds') : Respaced (cs ++ (gap ++ cs')) (ds ++ (tightGap gap ++ ds')) := by
  induction h with
  | solid hs => exact .append hs hgap h'
  | append hs hgap' _ ih =>
    simp only [List.append_assoc]
    exact .append hs hgap' ih

/-- The second text is the words of the first, with one space between any
two. -/
theorem exists_spaced (h : Respaced cs ds) :
    ∃ words, Spaced words cs ∧ (∀ word ∈ words, IsSolid word.toList)
      ∧ ds = (" ".intercalate words).toList := by
  induction h with
  | @solid s hs =>
    have hsingle := @Spaced.single (String.ofList s)
    rw [String.toList_ofList] at hsingle
    refine ⟨[String.ofList s], hsingle, ?_, ?_⟩
    · rw [List.forall_mem_singleton, String.toList_ofList]
      exact hs
    · rw [String.intercalate_singleton, String.toList_ofList]
  | @append s gap cs ds hs hgap _ ih =>
    obtain ⟨words, hspaced, hsolid, rfl⟩ := ih
    obtain ⟨word, words, rfl⟩ := List.exists_cons_of_ne_nil hspaced.ne_nil
    by_cases hnil : gap = []
    · -- Without a gap the characters belong to the first word.
      rw [hnil]
      refine ⟨(String.ofList s ++ word) :: words, hspaced.append_left s, ?_, ?_⟩
      · rw [List.forall_mem_cons] at hsolid ⊢
        refine ⟨⟨?_, ?_⟩, hsolid.2⟩
        · rw [String.toList_append, String.toList_ofList]
          exact List.append_ne_nil_of_left_ne_nil hs.ne_nil _
        · rw [String.toList_append, String.toList_ofList, List.forall_mem_append]
          exact ⟨hs.not_isIndent, hsolid.1.not_isIndent⟩
      · rw [String.intercalate_cons_append, String.toList_append, String.toList_ofList]
        rfl
    · have hcons := @Spaced.cons (String.ofList s) _ _ _ hgap hnil hspaced
      rw [String.toList_ofList] at hcons
      refine ⟨String.ofList s :: word :: words, hcons, ?_, ?_⟩
      · rw [List.forall_mem_cons, String.toList_ofList]
        exact ⟨hs, hsolid⟩
      · rw [String.intercalate_cons_cons, tightGap, if_neg (by simpa using hnil)]
        simp only [String.toList_append, String.toList_ofList, List.append_assoc]
        rfl

end Respaced

end Text

end EventRules

import EventRules.Firing.Platform
import EventRules.Script.Grammar.Predicate

/-!
# `EventRules.Proofs.Text.Flat`: texts with their line breaks as spaces

`Text.flat` puts a space in the place of each line break. Two texts that
are the same when flat differ at most in line breaks and spaces, one for
one. This module collects what such texts have in common:

* `Text.blankSeparated_flat`: the words in them, and with the words
  (`Platform.normalSymbol_of_flat`) the comparator that they name.
* `Predicate.valueStart_flat`: the place where a predicate's value
  begins.
-/

set_option autoImplicit false

namespace EventRules

namespace Text

/-- The character, or a space if it is a line break. -/
def flatChar (c : Char) : Char :=
  if isBreak c then ' ' else c

/-- The text with a space in the place of each line break. -/
def flat (text : String) : String :=
  String.ofList (text.toList.map flatChar)

/-! ### Characters -/

theorem flatChar_of_isBreak {c : Char} (h : isBreak c) : flatChar c = ' ' :=
  if_pos h

theorem flatChar_of_not_isBreak {c : Char} (h : ¬ isBreak c) : flatChar c = c :=
  if_neg h

theorem isBreak_flatChar (c : Char) : isBreak (flatChar c) = false := by
  by_cases h : isBreak c
  · rw [flatChar_of_isBreak h]
    decide
  · rw [flatChar_of_not_isBreak h]
    exact Bool.eq_false_iff.2 h

theorem isBlank_flatChar (c : Char) : isBlank (flatChar c) = isBlank c := by
  by_cases h : isBreak c
  · rw [flatChar_of_isBreak h, isBlank_of_isBreak h]
    decide
  · rw [flatChar_of_not_isBreak h]

/-- Only a character that is no space is made by itself alone. -/
theorem flatChar_eq_iff {c d : Char} (hspace : d ≠ ' ') (hbreak : isBreak d = false) :
    flatChar c = d ↔ c = d := by
  by_cases h : isBreak c
  · rw [flatChar_of_isBreak h]
    constructor
    · intro hd
      exact absurd hd.symm hspace
    · rintro rfl
      rw [h] at hbreak
      cases hbreak
  · rw [flatChar_of_not_isBreak h]

/-! ### Texts -/

@[simp] theorem toList_flat (text : String) : (flat text).toList = text.toList.map flatChar :=
  String.toList_ofList

theorem flat_ofList (cs : List Char) :
    flat (String.ofList cs) = String.ofList (cs.map flatChar) := by
  rw [flat, String.toList_ofList]

theorem flat_append (first second : String) :
    flat (first ++ second) = flat first ++ flat second := by
  rw [← String.toList_inj, toList_flat, String.toList_append, String.toList_append, toList_flat,
    toList_flat, List.map_append]

theorem isEmpty_flat (text : String) : (flat text).isEmpty = text.isEmpty := by
  rw [Bool.eq_iff_iff, String.isEmpty_iff, String.isEmpty_iff, ← String.toList_eq_nil_iff,
    ← String.toList_eq_nil_iff, toList_flat, List.map_eq_nil_iff]

/-- A text is flat when it has no line break. -/
theorem flat_eq_self {text : String} (h : ∀ c ∈ text.toList, isBreak c = false) :
    flat text = text := by
  have hmap : text.toList.map flatChar = text.toList.map id :=
    List.map_congr_left fun c hc => flatChar_of_not_isBreak (Bool.eq_false_iff.1 (h c hc))
  rw [← String.toList_inj, toList_flat, hmap, List.map_id]

theorem flat_flat (text : String) : flat (flat text) = flat text := by
  refine flat_eq_self ?_
  intro c hc
  rw [toList_flat, List.mem_map] at hc
  obtain ⟨d, -, rfl⟩ := hc
  exact isBreak_flatChar d

/-- Words with a space between any two. -/
theorem flat_intercalate (words : List String) :
    flat (String.intercalate " " words) = String.intercalate " " (words.map flat) := by
  induction words with
  | nil => rfl
  | cons word rest ih =>
    cases rest with
    | nil => rfl
    | cons next rest =>
      rw [String.intercalate_cons_cons, flat_append, flat_append, ih]
      show _ = String.intercalate " " (flat word :: flat next :: rest.map flat)
      rw [String.intercalate_cons_cons]
      rfl

/-- The words in a text. -/
theorem blankSeparated_flat (text : String) : blankSeparated (flat text) = blankSeparated text := by
  have hsplit : ∀ cs : List Char, (cs.map flatChar).splitOnP isBlank = cs.splitOnP isBlank := by
    intro cs
    induction cs with
    | nil => rfl
    | cons c cs ih =>
      rw [List.map_cons, List.splitOnP_cons_eq_if_modifyHead,
        List.splitOnP_cons_eq_if_modifyHead, isBlank_flatChar, ih]
      by_cases hblank : isBlank c
      · rw [if_pos hblank, if_pos hblank]
      · -- A character that stays in a word is no line break.
        have hbreak : ¬ isBreak c := fun h => hblank (isBlank_of_isBreak h)
        rw [flatChar_of_not_isBreak hbreak]
  rw [blankSeparated, blankSeparated, toList_flat, hsplit]

end Text

/-! ### Symbols -/

/-- Texts that are the same when flat name the same comparator. -/
theorem Platform.normalSymbol_of_flat {first second : String}
    (h : Text.flat first = Text.flat second) : normalSymbol first = normalSymbol second := by
  rw [normalSymbol, normalSymbol, ← Text.blankSeparated_flat first, h, Text.blankSeparated_flat]

/-! ### The place of the value -/

namespace Predicate

theorem lastOpening?_flat (words : List String) :
    lastOpening? (words.map Text.flat) = lastOpening? words := by
  induction words with
  | nil => rfl
  | cons word rest ih =>
    have hopen : (Text.flat word).toList.head? = some '[' ↔ word.toList.head? = some '[' := by
      rw [Text.toList_flat, List.head?_map, Option.map_eq_some_iff]
      constructor
      · rintro ⟨c, hc, hflat⟩
        rw [Text.flatChar_eq_iff (by decide) (by decide)] at hflat
        rw [hc, hflat]
      · intro hc
        exact ⟨'[', hc, by decide⟩
    rw [List.map_cons, lastOpening?, lastOpening?, ih]
    simp only [hopen]

theorem endsClosed_flat (words : List String) :
    endsClosed (words.map Text.flat) = endsClosed words := by
  have hclose : ∀ word : String,
      (Text.flat word).toList.getLast? = some ']' ↔ word.toList.getLast? = some ']' := by
    intro word
    rw [Text.toList_flat, List.getLast?_map, Option.map_eq_some_iff]
    constructor
    · rintro ⟨c, hc, hflat⟩
      rw [Text.flatChar_eq_iff (by decide) (by decide)] at hflat
      rw [hc, hflat]
    · intro hc
      exact ⟨']', hc, by decide⟩
  rw [endsClosed, endsClosed, List.getLast?_map]
  cases words.getLast? with
  | none => rfl
  | some word =>
    show decide _ = decide _
    simp only [hclose]

/-- A predicate's value begins at the same word. -/
theorem valueStart_flat (words : List String) :
    valueStart (words.map Text.flat) = valueStart words := by
  rw [valueStart, valueStart, endsClosed_flat, lastOpening?_flat, List.length_map]

end Predicate

end EventRules

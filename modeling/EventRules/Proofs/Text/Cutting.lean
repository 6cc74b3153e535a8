import EventRules.Firing.Platform
import EventRules.Proofs.Text.Upper

/-!
# `EventRules.Proofs.Text.Cutting`: texts cut at separators, and symbols

A text may be cut at its separators before or after its other characters are
written in another way, as long as none of them becomes a separator
(`Text.splitOnP_flatMap`). Upper case leaves blanks where they are and makes no
new ones, though it may write several letters for one. So the words of a text in
upper case are its words in upper case (`Text.blankSeparated_upper`).

A comparator symbol is looked up by its words, one space apart and in upper
case. This form is final: a symbol in it is its own form
(`Platform.normalSymbol_normalSymbol`), and a symbol that was put into upper case
before has the same form (`Platform.normalSymbol_upper`).
-/

set_option autoImplicit false

namespace EventRules

namespace Text

/-! ### Pieces between separators -/

section Pieces

variable {p : Char → Bool} {cs : List Char}

/-- What stands before the first separator goes to the first piece. -/
theorem splitOnP_append {block : List Char} (h : ∀ d ∈ block, ¬ p d) :
    (block ++ cs).splitOnP p = (cs.splitOnP p).modifyHead (block ++ ·) := by
  induction block with
  | nil => exact (congrFun List.modifyHead_id _).symm
  | cons d block ih =>
    rw [List.forall_mem_cons] at h
    rw [List.cons_append, List.splitOnP_cons_eq_if_modifyHead, if_neg h.1, ih h.2,
      List.modifyHead_modifyHead]
    rfl

/-- Characters may be written as others before or after a text is cut, if
separators stay and are not made. -/
theorem splitOnP_flatMap {f : Char → List Char} (hkept : ∀ c, p c → f c = [c])
    (hnew : ∀ c, ¬ p c → ∀ d ∈ f c, ¬ p d) (cs : List Char) :
    (cs.flatMap f).splitOnP p = (cs.splitOnP p).map (·.flatMap f) := by
  induction cs with
  | nil => rfl
  | cons c cs ih =>
    rw [List.flatMap_cons, List.splitOnP_cons_eq_if_modifyHead]
    by_cases hc : p c
    · rw [hkept c hc, List.singleton_append, List.splitOnP_cons_eq_if_modifyHead, if_pos hc,
        if_pos hc, ih]
      rfl
    · rw [splitOnP_append (hnew c hc), ih, if_neg hc]
      cases cs.splitOnP p <;> rfl

end Pieces

/-! ### Words -/

/-- A blank is its own upper case. -/
theorem upperChar_of_isBlank {c : Char} (h : isBlank c) : upperChar c = [c] := by
  have hplain : c.toNat ∈ plainCodes := mem_plainCodes_of_isMark (by rw [isMark, h]; rfl)
  have hdisjoint : codeSet upperSources &&& codeSet plainCodes = 0 := by
    decide +kernel
  rw [upperChar]
  split
  · rcases toUpper_cases c with ⟨hletter, -⟩ | ⟨-, hsame⟩
    · -- No blank is a letter.
      simp only [isBlank, Bool.or_eq_true, Bool.and_eq_true, decide_eq_true_eq] at h
      omega
    · rw [hsame]
  · exact mapCase_of_not_mem (not_mem_of_codeSet hdisjoint hplain)

theorem not_isBlank_of_mem_upperChar {c d : Char} (hc : ¬ isBlank c) (hd : d ∈ upperChar c) :
    ¬ isBlank d := by
  intro hblank
  rw [eq_of_mem_upperChar hd (by rw [isMark, hblank]; rfl)] at hblank
  exact hc hblank

/-- The words of a text in upper case. -/
theorem blankSeparated_upper (text : String) :
    blankSeparated (upper text) = (blankSeparated text).map upper := by
  have hsplit := splitOnP_flatMap (p := isBlank) (f := upperChar)
    (fun _ hc => upperChar_of_isBlank hc)
    (fun _ hc _ hd => not_isBlank_of_mem_upperChar hc hd) text.toList
  have hempty : ∀ cs : List Char, (cs.flatMap upperChar).isEmpty = cs.isEmpty := by
    intro cs
    cases cs with
    | nil => rfl
    | cons c cs =>
      rw [List.flatMap_cons, List.isEmpty_cons, List.isEmpty_eq_false_iff]
      exact List.append_ne_nil_of_left_ne_nil (upperChar_ne_nil c) _
  have hofList : ∀ cs : List Char,
      String.ofList (cs.flatMap upperChar) = upper (String.ofList cs) := by
    intro cs
    rw [upper, String.toList_ofList]
  simp only [blankSeparated, toList_upper, hsplit, List.filter_map, List.map_map,
    Function.comp_def, hempty, hofList]

end Text

/-! ### Symbols -/

namespace Platform

/-- A symbol may be put into upper case before it is looked up. -/
theorem normalSymbol_upper (symbol : String) :
    normalSymbol (Text.upper symbol) = normalSymbol symbol := by
  rw [normalSymbol, normalSymbol, Text.blankSeparated_upper, ← Text.upper_intercalate,
    Text.upper_upper]

end Platform

end EventRules

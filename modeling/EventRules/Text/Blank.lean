/-!
# `EventRules.Text.Blank`: blank characters

The characters that separate words, and the operations that cut a text
at them. `isBlank` is the `White_Space` property. The blanks that a
script line is laid out with are fewer: `isIndent` holds of the space
and the tab alone.
-/

set_option autoImplicit false

namespace EventRules.Text

/-- The space and the tab, which indent a line and separate the words
on it. -/
def isIndent (c : Char) : Bool :=
  c = ' ' || c = '\t'

/-- The line feed and the carriage return. -/
def isBreak (c : Char) : Bool :=
  c = '\n' || c = '\r'

/-- The 25 characters with the `White_Space` property. -/
def isBlank (c : Char) : Bool :=
  let n := c.toNat
  (9 ≤ n && n ≤ 13) || n = 0x20 || n = 0x85 || n = 0xa0 || n = 0x1680
    || (0x2000 ≤ n && n ≤ 0x200a) || n = 0x2028 || n = 0x2029
    || n = 0x202f || n = 0x205f || n = 0x3000

theorem isBlank_of_isIndent {c : Char} (h : isIndent c) : isBlank c := by
  simp only [isIndent, Bool.or_eq_true, decide_eq_true_eq] at h
  rcases h with rfl | rfl <;> decide

theorem isBlank_of_isBreak {c : Char} (h : isBreak c) : isBlank c := by
  simp only [isBreak, Bool.or_eq_true, decide_eq_true_eq] at h
  rcases h with rfl | rfl <;> decide

/-- A line break is a line feed or a carriage return. -/
theorem eq_of_isBreak {c : Char} (h : isBreak c) : c = '\n' ∨ c = '\r' := by
  simp only [isBreak, Bool.or_eq_true, decide_eq_true_eq] at h
  exact h

theorem not_isIndent_of_isBreak {c : Char} (h : isBreak c) : ¬ isIndent c := by
  rcases eq_of_isBreak h with rfl | rfl <;> decide

/-- The characters without the blanks at both ends. -/
def trimChars (cs : List Char) : List Char :=
  ((cs.dropWhile isBlank).reverse.dropWhile isBlank).reverse

/-- The text without the blanks at both ends. -/
def trim (text : String) : String :=
  String.ofList (trimChars text.toList)

/-- The non-empty runs between blanks, in order. -/
def blankSeparated (text : String) : List String :=
  ((text.toList.splitOnP isBlank).filter (!·.isEmpty)).map String.ofList

end EventRules.Text

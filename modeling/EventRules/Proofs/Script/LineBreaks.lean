import EventRules.Proofs.Script.LineStarts

/-!
# `EventRules.Proofs.Script.LineBreaks`: how the scanner counts lines

A line of a script ends with one line break, whether that is a line feed, a
carriage return or both, and each line feed in a span is one more. The
scanner counts these in three ways: a break after text, the line feeds of
blank lines and the line feeds of spans. The second of them misses the blank
lines that end in a carriage return alone.

* `ScanState.line_after_line` is the count over one line, and
  `ScanState.line_after_cutLines` over all lines: what the scanner counts and
  what it misses are the line breaks.
* `ScanState.BeforeLine.after_layout` and `ScanState.line_after_unbroken`
  are the two ways in which a line is read, without text and with it.
-/

set_option autoImplicit false

namespace EventRules

open Text

namespace LogicalLine

/-- The number of line breaks of the line: each line feed in a span, and the
break that ends it. -/
def breaks (line : LogicalLine) : Nat :=
  line.content.count '\n' + if line.ending.isEmpty then 0 else 1

/-- Whether the scanner misses the break that ends the line: a carriage
return alone, with nothing but spaces and tabs before it. -/
def isMissed (line : LogicalLine) : Bool :=
  line.isBlank && line.ending = ['\r']

end LogicalLine

/-- The number of line breaks in characters from the start of a script. -/
def breaksOf (cs : List Char) : Nat :=
  (cutLines .gap cs).foldr (·.breaks + ·) 0

/-- The number of those that the scanner misses. -/
def missedBreaksOf (cs : List Char) : Nat :=
  (cutLines .gap cs).countP LogicalLine.isMissed

namespace ScanState

/-! ### Lines without text -/

/-- Several characters of layout. -/
theorem BeforeLine.after_layout {state : ScanState} {layout cs : List Char}
    (hlayout : ∀ c ∈ layout, isLayout c) (h : state.BeforeLine (layout ++ cs)) :
    (state.after layout).BeforeLine cs
      ∧ (state.after layout).line = state.line + layout.count '\n' := by
  induction layout generalizing state with
  | nil => exact ⟨h, rfl⟩
  | cons c layout ih =>
    rw [List.forall_mem_cons] at hlayout
    obtain ⟨-, hbefore, hpasses⟩ := h.step_layout hlayout.1
    obtain ⟨hafter, hline⟩ := ih hlayout.2 hbefore
    refine ⟨hafter, ?_⟩
    show ((state.step c).2.after layout).line = _
    rw [hline, hpasses.line_eq, Nat.add_assoc, ← List.count_append]
    rfl

theorem isLayout_of_isIndent {c : Char} (h : isIndent c) : isLayout c := by
  rw [isLayout, h]
  rfl

/-! ### Lines with text -/

theorem line_word_of_not_isBreak {c : Char} (hbreak : ¬ isBreak c) (state : ScanState) :
    (state.word c).2.line = state.line := by
  rw [word, if_neg hbreak]
  split
  · rfl
  split
  · rfl
  split <;> rfl

/-- A character on a line counts if it is a line feed, which is in a span
then. -/
theorem line_step_unbroken {state : ScanState} {c : Char} (h : isBreak c → state.place.inSpan) :
    (state.step c).2.line = state.line + [c].count '\n' := by
  have hfeed : ¬ isBreak c → [c].count '\n' = 0 := by
    intro hbreak
    rw [List.count_eq_zero, List.mem_singleton]
    rintro rfl
    exact hbreak rfl
  have hplain : state.inGroup = false → ¬ isBreak c := by
    intro hspan hbreak
    rw [← inGroup_eq_inSpan, hspan] at h
    exact Bool.false_ne_true (h hbreak)
  rw [step]
  cases hmode : state.mode with
  | lineStart afterReturn =>
    have hbreak := hplain (by rw [inGroup, hmode])
    have hreturn : ¬ (c = '\n' ∧ afterReturn) := by
      rintro ⟨rfl, -⟩
      exact hbreak rfl
    simp only [lineStart]
    rw [hfeed hbreak, if_neg hreturn, if_neg hbreak]
    split
    · rfl
    · exact line_word_of_not_isBreak hbreak state.cleared
  | word =>
    have hbreak := hplain (by rw [inGroup, hmode])
    rw [hfeed hbreak]
    exact line_word_of_not_isBreak hbreak state
  | hash =>
    have hbreak := hplain (by rw [inGroup, hmode])
    simp only [hash]
    rw [hfeed hbreak, if_neg hbreak]
    split
    · rfl
    · exact line_word_of_not_isBreak hbreak (state.push '#')
  | comment =>
    have hbreak := hplain (by rw [inGroup, hmode])
    simp only [comment]
    rw [hfeed hbreak, if_neg hbreak]
    rfl
  | group escaping =>
    simp only [group]
    cases hread : Span.read escaping c with
    | add cs =>
      show ((state.add cs).count c).line = _
      rw [line_count, line_add]
    | escape =>
      obtain ⟨-, rfl⟩ := Span.eq_of_read_escape hread
      rfl
    | close =>
      obtain ⟨-, rfl⟩ := Span.eq_of_read_close hread
      rfl

/-- So it is with all characters up to a line break outside spans. -/
theorem line_after_unbroken {state : ScanState} (htidy : state.Tidy) {cs : List Char}
    (hcs : Unbroken state.place cs) : (state.after cs).line = state.line + cs.count '\n' := by
  induction cs generalizing state with
  | nil => rfl
  | cons c cs ih =>
    obtain ⟨hplace, hnext⟩ := htidy.step c
    have hrest : Unbroken (state.step c).2.place cs := hplace ▸ hcs.2
    show ((state.step c).2.after cs).line = _
    rw [ih hnext hrest, line_step_unbroken hcs.1, Nat.add_assoc, ← List.count_append]
    rfl

/-- A line break after text leads down. -/
theorem step_of_break {state : ScanState} (hon : state.OnLine) (hspan : state.place.inSpan = false)
    {c : Char} (hbreak : isBreak c) :
    (state.step c).2
      = { state.cleared with mode := .lineStart (c = '\r'), line := state.line + 1 } := by
  rw [step_eq_word_of_break hon hspan hbreak, word, if_pos hbreak]

/-- It leads down by one line, of whatever kind it is. -/
theorem line_after_ending {state : ScanState} (hon : state.OnLine)
    (hspan : state.place.inSpan = false) {ending rest : List Char} (hending : Ending ending rest) :
    (state.after ending).line = state.line + 1 := by
  cases hending with
  | feed =>
    show (state.step '\n').2.line = _
    rw [step_of_break hon hspan rfl]
  | «return» _ =>
    show (state.step '\r').2.line = _
    rw [step_of_break hon hspan rfl]
  | both =>
    -- The line feed belongs to the carriage return.
    show ((state.step '\r').2.step '\n').2.line = _
    rw [step_of_break hon hspan rfl]
    rfl

/-! ### All lines -/

/-- What the scanner counts on a line and what it misses are the line breaks
of the line. -/
theorem line_after_line {state : ScanState} {cs rest : List Char} {line : LogicalLine}
    (h : state.BeforeLine cs) (hfirst : FirstLine .gap cs line rest) :
    (state.after line.chars).line + (if line.isMissed then 1 else 0)
      = state.line + line.breaks := by
  have hchars : state.after line.chars = (state.after line.content).after line.ending :=
    List.foldl_append
  have hunbroken : Unbroken state.place line.content := h.place_eq ▸ hfirst.unbroken
  have hcontent := line_after_unbroken h.tidy hunbroken
  rw [hchars, LogicalLine.breaks]
  cases hblank : line.isBlank with
  | true =>
    have hindent : ∀ c ∈ line.content, isLayout c := by
      intro c hc
      have hall := (Bool.and_eq_true_iff.1 hblank).2
      exact isLayout_of_isIndent (List.all_eq_true.1 hall c hc)
    have hending : Ending line.ending rest := by
      rcases hfirst.ending with ⟨hnil, -⟩ | ⟨-, hending⟩
      · rw [LogicalLine.isBlank, hnil] at hblank
        cases hblank
      · exact hending
    rw [hfirst.chars_eq] at h
    obtain ⟨hbefore, -⟩ := h.after_layout hindent
    have hbreaks : ∀ c ∈ line.ending, isLayout c := by
      generalize line.ending = ending at hending
      cases hending with
      | feed => exact List.forall_mem_singleton.2 rfl
      | «return» _ => exact List.forall_mem_singleton.2 rfl
      | both => exact List.forall_mem_cons.2 ⟨rfl, List.forall_mem_singleton.2 rfl⟩
    obtain ⟨-, hline⟩ := hbefore.after_layout hbreaks
    rw [hline, hcontent, LogicalLine.isMissed, hblank]
    generalize line.ending = ending at hending
    -- Only a carriage return alone has no line feed.
    cases hending <;> rfl
  | false =>
    have hkept : line.isMissed = false := by rw [LogicalLine.isMissed, hblank, Bool.false_and]
    rw [hkept]
    rcases hfirst.ending with ⟨hnil, -⟩ | ⟨hspan, hending⟩
    · rw [hnil]
      exact hcontent
    · have hplace : (state.after line.content).place.inSpan = false := by
        rw [(h.tidy.after line.content).1, h.place_eq]
        exact hspan
      have hne : line.ending.isEmpty = false := by
        generalize line.ending = ending at hending
        cases hending <;> rfl
      have hon : (state.after line.content).OnLine := by
        rcases eq_indent_append line.content with hall | ⟨indent, c, text, htext, hindent, hc⟩
        · rw [LogicalLine.isBlank, hne, List.all_eq_true.2 hall] at hblank
          cases hblank
        · rw [htext]
          have hcut := hfirst.unbroken
          rw [htext] at hcut
          exact onLine_after_text h.place_eq h.tidy hindent hc hcut
      rw [line_after_ending hon hplace hending, hcontent, hne]
      exact Nat.add_assoc _ _ _

/-- What the scanner counts and what it misses are the line breaks. -/
theorem line_after_cutLines {state : ScanState} {cs : List Char} (h : state.BeforeLine cs) :
    (state.after cs).line + missedBreaksOf cs = state.line + breaksOf cs := by
  refine cutLines_induction (P := fun cs lines => ∀ state : ScanState, state.BeforeLine cs →
    (state.after cs).line + lines.countP LogicalLine.isMissed
      = state.line + lines.foldr (·.breaks + ·) 0) ?_ ?_ cs state h
  · intro state _
    rfl
  · intro cs line rest hfirst ih state h
    have hline := line_after_line h hfirst
    have hsplit : state.after cs = (state.after line.chars).after rest := by
      rw [hfirst.chars_eq, ← List.append_assoc]
      exact List.foldl_append
    have hrest : ((state.after line.chars).after rest).line + missedBreaksOf rest
        = (state.after line.chars).line + breaksOf rest := by
      rcases hfirst.ending with ⟨-, hnil⟩ | ⟨-, hending⟩
      · rw [hnil]
        rfl
      · refine ih _ (h.after_line hfirst ?_)
        intro hnil
        rw [hnil] at hending
        cases hending
    rw [hsplit, List.countP_cons, List.foldr_cons]
    rw [missedBreaksOf, breaksOf] at hrest
    omega

end ScanState

end EventRules

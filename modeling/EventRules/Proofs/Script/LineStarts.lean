import EventRules.Proofs.Script.LogicalLines

/-!
# `EventRules.Proofs.Script.LineStarts`: scans that start with a line

Between two lines of a script the scanner has at most a run of blank lines
under way. Unlike `Reads`, which is about tokens on no line in particular,
this module keeps the lines:

* `ScanState.BeforeLine.scan_eq`: a scan from the start of a line finds the
  run, made longer by the line breaks before the first text, and then what
  a scanner finds that has nothing under way.
* `ScanState.line_lt_of_mem_completed`: the tokens completed before stand
  on earlier lines.
* `ScanState.BeforeLine.after_lines`: the scanner is at the start of a line
  between any two logical lines.
* `ScanState.BeforeLine.scan_end`: at the end of a line that is not blank
  the token under way is completed, and nothing else is kept but the line.

A comment that a line break or the end of the script follows is as good as
nothing (`ScanState.scan_fresh_comment`).
-/

set_option autoImplicit false

namespace EventRules

open Text

/-- The characters that may stand before the first text of a line. -/
def Text.isLayout (c : Char) : Bool :=
  isIndent c || isBreak c

namespace ScanState

/-! ### The run of blank lines under way -/

theorem isEmptyLine_of_token? {state : ScanState} {token : Token}
    (h : token ∈ state.token? .emptyLine) : token.isEmptyLine := by
  obtain ⟨-, rfl⟩ := token?_eq_some_iff.1 h
  rfl

theorem token?_eq_none_iff {state : ScanState} {kind : TokenKind} :
    state.token? kind = none ↔ state.text.isEmpty := by
  rw [token?]
  cases state.text.isEmpty <;> simp

/-- What layout does to the scanner before a line: it moves the scanner
down and adds to the run. -/
structure Passes (state next : ScanState) (layout : List Char) : Prop where
  line_eq : next.line = state.line + layout.count '\n'
  text_isEmpty : next.text.isEmpty = (state.text.isEmpty && !layout.any isBreak)

namespace BeforeLine

variable {state : ScanState} {cs : List Char}

theorem step_layout {c : Char} (h : state.BeforeLine (c :: cs)) (hc : isLayout c) :
    (state.step c).1 = none ∧ (state.step c).2.BeforeLine cs
      ∧ Passes state (state.step c).2 [c] := by
  obtain ⟨afterReturn, hmode, hfeed⟩ := h
  have hreturn : ¬ (c = '\n' ∧ afterReturn) := by
    rintro ⟨rfl, hafter⟩
    exact hfeed hafter rfl
  rw [ScanState.step, hmode]
  simp only [ScanState.lineStart]
  by_cases hindent : isIndent c
  · have hbreak : isBreak c = false := by
      cases hbreak : isBreak c with
      | true => exact absurd hindent (not_isIndent_of_isBreak hbreak)
      | false => rfl
    have hne : c ≠ '\n' := by
      rintro rfl
      cases hbreak
    rw [if_pos hindent]
    refine ⟨rfl, beforeLine_of_mode rfl cs, ?_, ?_⟩
    · rw [List.count_singleton, beq_false_of_ne hne]
      rfl
    · rw [List.any_cons, hbreak]
      exact (Bool.and_true _).symm
  · have hbreak : isBreak c := by
      rw [isLayout, Bool.or_eq_true] at hc
      exact hc.resolve_left hindent
    rw [if_neg hindent, if_neg hreturn, if_pos hbreak]
    refine ⟨rfl, beforeLine_of_mode rfl cs, line_count (state.push c) c, ?_⟩
    have htext : (((state.push c).count c).enter (.lineStart false)).text = state.text.push c :=
      text_count (state.push c) c
    rw [htext, isEmpty_push, List.any_cons, hbreak]
    exact (Bool.and_false _).symm

/-- The first text ends the run, and is read by a scanner that has nothing
under way. -/
theorem scan_eq (h : state.BeforeLine cs) :
    ∃ next : ScanState, Passes state next (cs.takeWhile isLayout)
      ∧ state.scan cs
        = (next.token? .emptyLine).toList ++ next.fresh.scan (cs.dropWhile isLayout) := by
  induction cs generalizing state with
  | nil =>
    refine ⟨state, ⟨rfl, (Bool.and_true _).symm⟩, ?_⟩
    rw [scan, h.finish_eq]
    exact (List.append_nil _).symm
  | cons c cs ih =>
    by_cases hc : isLayout c
    · obtain ⟨htoken, hbefore, hpasses⟩ := h.step_layout hc
      obtain ⟨next, hnext, hscan⟩ := ih hbefore
      refine ⟨next, ⟨?_, ?_⟩, ?_⟩
      · rw [hnext.line_eq, hpasses.line_eq, List.takeWhile_cons_of_pos hc, Nat.add_assoc,
          ← List.count_append]
        rfl
      · rw [hnext.text_isEmpty, hpasses.text_isEmpty, List.takeWhile_cons_of_pos hc]
        simp [Bool.and_assoc]
      · rw [scan, htoken, hscan, List.dropWhile_cons_of_pos hc]
        rfl
    · obtain ⟨hindent, hbreak⟩ : ¬ isIndent c ∧ ¬ isBreak c := by
        rw [isLayout, Bool.or_eq_true, not_or] at hc
        exact hc
      refine ⟨state, ?_, ?_⟩
      · rw [List.takeWhile_cons_of_neg hc]
        exact ⟨rfl, (Bool.and_true _).symm⟩
      · rw [List.dropWhile_cons_of_neg hc, scan_of_gap h.place_eq hindent hbreak, h.finish_eq]

end BeforeLine

/-- With nothing under way, only the line matters. -/
theorem ahead_fresh {lines : Nat} {state other : ScanState} (h : state.line = other.line + lines) :
    Ahead lines state.fresh other.fresh :=
  ⟨rfl, rfl, h, fun hempty => by cases hempty⟩

theorem le_line_of_mem_scan_fresh {state : ScanState} {cs : List Char} {token : Token}
    (h : token ∈ state.fresh.scan cs) : state.line ≤ token.line := by
  have hdue : state.fresh.due ≤ state.fresh.line := Nat.le_refl _
  exact due_le_of_mem_scan hdue h

/-! ### The lines of earlier tokens -/

/-- A character on a line leads down or not off the line. -/
theorem line_word (state : ScanState) (c : Char) :
    state.line ≤ (state.word c).2.line
      ∧ ((state.word c).2.OnLine ∨ state.line < (state.word c).2.line) := by
  rw [ScanState.word]
  split
  · exact ⟨Nat.le_succ _, .inr (Nat.lt_succ_self _)⟩
  split
  · exact ⟨Nat.le_refl _, .inl (onLine_of_mode rfl)⟩
  split
  · exact ⟨Nat.le_refl _, .inl (onLine_of_mode rfl)⟩
  split
  · exact ⟨Nat.le_refl _, .inl (onLine_of_mode rfl)⟩
  · exact ⟨Nat.le_refl _, .inl (onLine_of_mode rfl)⟩

/-- A step from before a line to before a line completes nothing, and
any other step to there leads down. -/
theorem line_step (state : ScanState) (c : Char) :
    state.line ≤ (state.step c).2.line
      ∧ ((state.step c).2.OnLine ∨ state.line < (state.step c).2.line
        ∨ ¬ state.OnLine ∧ (state.step c).1 = none) := by
  rw [ScanState.step]
  cases hmode : state.mode with
  | lineStart afterReturn =>
    have hstart : ¬ state.OnLine := fun h => h afterReturn hmode
    simp only [ScanState.lineStart]
    split
    · exact ⟨Nat.le_refl _, .inr (.inr ⟨hstart, rfl⟩)⟩
    split
    · exact ⟨Nat.le_refl _, .inr (.inr ⟨hstart, rfl⟩)⟩
    split
    · have hline : (((state.push c).count c).enter (.lineStart false)).line
          = state.line + [c].count '\n' := line_count (state.push c) c
      exact ⟨hline ▸ Nat.le_add_right _ _, .inr (.inr ⟨hstart, rfl⟩)⟩
    · exact (line_word state.cleared c).imp_right (·.imp_right .inl)
  | word => exact (line_word state c).imp_right (·.imp_right .inl)
  | hash =>
    simp only [ScanState.hash]
    split
    · exact (line_word state c).imp_right (·.imp_right .inl)
    split
    · exact ⟨Nat.le_refl _, .inl (onLine_of_mode rfl)⟩
    · exact (line_word (state.push '#') c).imp_right (·.imp_right .inl)
  | comment =>
    have hstays : state.OnLine := onLine_of_mode (by rw [hmode]; rfl)
    simp only [ScanState.comment]
    split
    · exact (line_word state c).imp_right (·.imp_right .inl)
    · exact ⟨Nat.le_refl _, .inl hstays⟩
  | group escaping =>
    simp only [ScanState.group]
    cases Span.read escaping c with
    | add cs =>
      have hline : (((state.add cs).count c).enter (.group false)).line
          = state.line + [c].count '\n' := by
        rw [← line_add state cs]
        exact line_count (state.add cs) c
      exact ⟨hline ▸ Nat.le_add_right _ _, .inl (onLine_of_mode rfl)⟩
    | escape => exact ⟨Nat.le_refl _, .inl (onLine_of_mode rfl)⟩
    | close => exact ⟨Nat.le_refl _, .inl (onLine_of_mode rfl)⟩

/-- Nothing more comes on a line, unless the scanner is on it. -/
def HasPassed (state : ScanState) (line : Nat) : Prop :=
  line ≤ state.line ∧ (state.OnLine ∨ line < state.line)

theorem HasPassed.after {state : ScanState} {line : Nat} (h : state.HasPassed line)
    (cs : List Char) : (state.after cs).HasPassed line := by
  induction cs generalizing state with
  | nil => exact h
  | cons c cs ih =>
    obtain ⟨hle, hline⟩ := h
    obtain ⟨hstep, hnext⟩ := state.line_step c
    refine ih ⟨Nat.le_trans hle hstep, ?_⟩
    rcases hnext with hon | hlt | ⟨hstart, -⟩
    · exact .inl hon
    · exact .inr (Nat.lt_of_le_of_lt hle hlt)
    · exact .inr (Nat.lt_of_lt_of_le (hline.resolve_left hstart) hstep)

/-- The scanner has passed the lines of the tokens it has completed. -/
theorem hasPassed_of_mem_completed {state : ScanState} (hdue : state.due ≤ state.line)
    {cs : List Char} {token : Token} (h : token ∈ state.completed cs) :
    (state.after cs).HasPassed token.line := by
  induction cs generalizing state with
  | nil => cases h
  | cons c cs ih =>
    have hstep : Onward state.due (state.step c) := .step hdue c
    rw [completed, List.mem_append, Option.mem_toList] at h
    rcases h with h | h
    · obtain ⟨hle, hnext⟩ := state.line_step c
      have hline : token.line ≤ state.line := by
        rw [hstep.line_eq token h]
        exact hdue
      refine HasPassed.after ⟨Nat.le_trans hline hle, ?_⟩ cs
      rcases hnext with hon | hlt | ⟨-, hnone⟩
      · exact .inl hon
      · exact .inr (Nat.lt_of_le_of_lt hline hlt)
      · rw [hnone] at h
        cases h
    · exact ih hstep.due_le h

/-- Before a line, all tokens stand on earlier lines. -/
theorem line_lt_of_mem_completed {cs rest : List Char}
    (hbefore : (initial.after cs).BeforeLine rest) {token : Token}
    (h : token ∈ initial.completed cs) : token.line < (initial.after cs).line := by
  obtain ⟨afterReturn, hmode, -⟩ := hbefore
  obtain ⟨-, hon | hlt⟩ := hasPassed_of_mem_completed (Nat.le_refl _) h
  · exact absurd hmode (hon afterReturn)
  · exact hlt

/-! ### The start of a logical line -/

/-- A line break outside spans ends a line. -/
theorem mode_step_break {state : ScanState} (hspan : state.place.inSpan = false) {c : Char}
    (hbreak : isBreak c) :
    ∃ afterReturn, (state.step c).2.mode = .lineStart afterReturn
      ∧ (afterReturn → c = '\r') := by
  have hword : ∀ other : ScanState, ∃ afterReturn,
      (other.word c).2.mode = .lineStart afterReturn ∧ (afterReturn → c = '\r') := by
    intro other
    rw [ScanState.word, if_pos hbreak]
    exact ⟨_, rfl, fun h => of_decide_eq_true h⟩
  rw [ScanState.step]
  cases hmode : state.mode with
  | lineStart afterReturn =>
    simp only [ScanState.lineStart]
    rw [if_neg (not_isIndent_of_isBreak hbreak), if_pos hbreak]
    split <;> exact ⟨false, rfl, fun h => absurd h Bool.false_ne_true⟩
  | word => exact hword state
  | hash =>
    simp only [ScanState.hash]
    rw [if_pos hbreak]
    exact hword state
  | comment =>
    simp only [ScanState.comment]
    rw [if_pos hbreak]
    exact hword state
  | group escaping =>
    rw [place, hmode] at hspan
    cases hspan

theorem beforeLine_of_ending {state : ScanState} (hspan : state.place.inSpan = false)
    {ending rest : List Char} (hending : Ending ending rest) :
    (state.after ending).BeforeLine rest := by
  cases hending with
  | feed =>
    obtain ⟨afterReturn, hmode, hreturn⟩ := mode_step_break hspan (c := '\n') rfl
    exact ⟨afterReturn, hmode, fun h => absurd (hreturn h) (by decide)⟩
  | «return» hfeed =>
    obtain ⟨afterReturn, hmode, -⟩ := mode_step_break hspan (c := '\r') rfl
    exact ⟨afterReturn, hmode, fun _ => hfeed⟩
  | both =>
    -- The carriage return already leads before a line.
    obtain ⟨first, hfirst, -⟩ := mode_step_break hspan (c := '\r') rfl
    have hnext : (state.step '\r').2.place.inSpan = false := by
      rw [place, hfirst]
      rfl
    obtain ⟨afterReturn, hmode, hreturn⟩ := mode_step_break hnext (c := '\n') rfl
    exact ⟨afterReturn, hmode, fun h => absurd (hreturn h) (by decide)⟩

theorem BeforeLine.after_line {state : ScanState} {cs rest : List Char} {line : LogicalLine}
    (h : state.BeforeLine cs) (hfirst : FirstLine .gap cs line rest) (hended : line.ending ≠ []) :
    (state.after line.chars).BeforeLine rest := by
  obtain ⟨hspan, hending⟩ := hfirst.ending.resolve_left fun hend => hended hend.1
  have hplace : (state.after line.content).place.inSpan = false := by
    rw [(h.tidy.after line.content).1, h.place_eq]
    exact hspan
  have hafter : state.after line.chars = (state.after line.content).after line.ending :=
    List.foldl_append
  rw [hafter]
  exact beforeLine_of_ending hplace hending

end ScanState

/-- The lines hold the characters. -/
theorem flatMap_chars_cutLines (cs : List Char) :
    (cutLines .gap cs).flatMap LogicalLine.chars = cs := by
  have hlines := flatMap_chars_logicalLines (String.ofList cs)
  rw [logicalLines, String.toList_ofList] at hlines
  exact hlines

/-- The first line stands before the characters of the others, and these
are their lines. -/
theorem firstLine_of_cutLines {cs : List Char} {line : LogicalLine} {lines : List LogicalLine}
    (h : cutLines .gap cs = line :: lines) :
    FirstLine .gap cs line (lines.flatMap LogicalLine.chars)
      ∧ cutLines .gap (lines.flatMap LogicalLine.chars) = lines := by
  have hne : cs ≠ [] := by
    rintro rfl
    cases h
  obtain ⟨first, rest, hlines, hfirst, -⟩ := exists_firstLine .gap hne
  rw [h] at hlines
  cases hlines
  rw [flatMap_chars_cutLines]
  exact ⟨hfirst, rfl⟩

/-- Between two lines the scanner is before a line. -/
theorem ScanState.BeforeLine.after_lines {state : ScanState} {cs : List Char}
    (h : state.BeforeLine cs) {before after : List LogicalLine}
    (hlines : cutLines .gap cs = before ++ after)
    (hended : after = [] → ∀ line ∈ before.getLast?, line.ending ≠ []) :
    (state.after (before.flatMap LogicalLine.chars)).BeforeLine
        (after.flatMap LogicalLine.chars)
      ∧ cutLines .gap (after.flatMap LogicalLine.chars) = after := by
  induction before generalizing state cs with
  | nil =>
    have hafter : after = cutLines .gap cs := hlines.symm
    rw [hafter, flatMap_chars_cutLines]
    exact ⟨h, rfl⟩
  | cons line before ih =>
    rw [List.cons_append] at hlines
    obtain ⟨hfirst, hrest⟩ := firstLine_of_cutLines hlines
    have hending : line.ending ≠ [] := by
      cases hlater : before ++ after with
      | nil =>
        obtain ⟨rfl, rfl⟩ := List.append_eq_nil_iff.1 hlater
        exact hended rfl line rfl
      | cons other later =>
        -- Only the last line of a script goes without a line break.
        intro hnil
        rcases hfirst.ending with ⟨-, hempty⟩ | ⟨-, hbreak⟩
        · rw [hempty, hlater] at hrest
          cases hrest
        · rw [hnil] at hbreak
          cases hbreak
    have hlast : after = [] → ∀ other ∈ before.getLast?, other.ending ≠ [] := by
      intro hnil other hother
      refine hended hnil other ?_
      rw [List.getLast?_cons, Option.mem_def.1 hother]
      rfl
    have hnext := ih (h.after_line hfirst hending) hrest hlast
    have hafter : state.after ((line :: before).flatMap LogicalLine.chars)
        = (state.after line.chars).after (before.flatMap LogicalLine.chars) := by
      rw [List.flatMap_cons]
      exact List.foldl_append
    rw [hafter]
    exact hnext

/-! ### Comments -/

/-- The text that makes a comment of a `#` before it. -/
def CommentText (comment : List Char) : Prop :=
  (∀ c ∈ comment.head?, Text.isBlank c) ∧ ∀ c ∈ comment, ¬ isBreak c

namespace ScanState

/-- The text of a comment is stepped over. -/
theorem scan_comment {state : ScanState} (hmode : state.mode = .comment) {comment : List Char}
    (hcomment : ∀ c ∈ comment, ¬ isBreak c) (cs : List Char) :
    state.scan (comment ++ cs) = state.scan cs := by
  induction comment with
  | nil => rfl
  | cons c comment ih =>
    rw [List.forall_mem_cons] at hcomment
    have hstep : state.step c = (none, state) := by
      rw [ScanState.step, hmode]
      exact if_neg hcomment.1
    rw [List.cons_append, scan, hstep, ih hcomment.2]
    rfl

/-- A comment that ends with its line or with the script is as good as
nothing. -/
theorem scan_fresh_comment (state : ScanState) {comment : List Char}
    (hcomment : CommentText comment) {cs : List Char} (hcs : ∀ c ∈ cs.head?, isBreak c) :
    state.fresh.scan ('#' :: (comment ++ cs)) = state.fresh.scan cs := by
  have hhash : state.fresh.scan ('#' :: (comment ++ cs))
      = (state.fresh.enter .hash).scan (comment ++ cs) := rfl
  rw [hhash]
  cases comment with
  | nil =>
    have hon : (state.fresh.enter .hash).OnLine := onLine_of_mode rfl
    rw [List.nil_append, scan_of_end hon rfl hcs]
    rfl
  | cons c comment =>
    obtain ⟨hblank, hbreak⟩ := hcomment
    rw [List.forall_mem_cons] at hbreak
    have hstep : (state.fresh.enter .hash).step c = (none, state.fresh.enter .comment) := by
      show ScanState.hash c (state.fresh.enter .hash) = _
      rw [ScanState.hash, if_neg hbreak.1, if_pos (hblank c rfl)]
      rfl
    have hmode : (state.fresh.enter .comment).mode = .comment := rfl
    have hon : (state.fresh.enter .comment).OnLine := onLine_of_mode rfl
    rw [List.cons_append, scan, hstep, scan_comment hmode hbreak.2, scan_of_end hon rfl hcs]
    rfl

/-- A comment after a space completes the token under way, as the end of
the line would. -/
theorem scan_space_comment {state : ScanState} (htidy : state.Tidy)
    (hspan : state.place.inSpan = false) {comment : List Char} (hcomment : CommentText comment)
    {cs : List Char} (hcs : ∀ c ∈ cs.head?, isBreak c) :
    state.scan (' ' :: '#' :: (comment ++ cs)) = state.finish.toList ++ state.fresh.scan cs := by
  -- A comment is under way, and the other one is a part of it.
  have hinside : ∀ other : ScanState, other.mode = .comment →
      other.scan ('#' :: (comment ++ cs)) = other.scan cs := by
    intro other hmode
    have hall : ∀ c ∈ '#' :: comment, ¬ isBreak c :=
      List.forall_mem_cons.2 ⟨by decide, hcomment.2⟩
    exact scan_comment hmode hall cs
  rw [scan, ScanState.step]
  cases hmode : state.mode with
  | lineStart afterReturn =>
    have hstep : state.lineStart afterReturn ' ' = (none, state.enter (.lineStart false)) := rfl
    have hplace : (state.enter (.lineStart false)).place = .gap := rfl
    have hfresh : (state.enter (.lineStart false)).fresh = state.fresh := rfl
    simp only [hstep]
    rw [scan_of_gap hplace (by decide) (by decide), hfresh, scan_fresh_comment state hcomment hcs,
      finish, finish, hmode]
    rfl
  | word =>
    have hstep : state.word ' ' = (state.token? .word, state.fresh) := rfl
    simp only [hstep]
    rw [scan_fresh_comment state hcomment hcs, finish, hmode]
  | hash =>
    have hstep : state.hash ' ' = (none, state.enter .comment) := rfl
    have hon : (state.enter .comment).OnLine := onLine_of_mode rfl
    have hnone : state.token? .word = none := token?_eq_none_iff.2 (htidy (.inl hmode))
    simp only [hstep]
    rw [hinside _ rfl, scan_of_end hon rfl hcs, finish, finish, hmode]
    exact congrArg (·.toList ++ state.fresh.scan cs) (hnone.trans hnone.symm)
  | comment =>
    have hstep : state.comment ' ' = (none, state) := rfl
    have hon : state.OnLine := onLine_of_mode (by rw [hmode]; rfl)
    simp only [hstep]
    rw [hinside _ hmode, scan_of_end hon hspan hcs]
    rfl
  | group escaping =>
    rw [place, hmode] at hspan
    cases hspan

end ScanState

/-- What follows the content of a line begins with a line break, if there
is anything. -/
theorem FirstLine.isBreak_of_head {place : Place} {cs rest : List Char} {line : LogicalLine}
    (h : FirstLine place cs line rest) : ∀ c ∈ (line.ending ++ rest).head?, isBreak c := by
  rcases h.ending with ⟨hending, hrest⟩ | ⟨-, hending⟩
  · rw [hending, hrest]
    exact fun _ hc => absurd hc (Option.not_mem_none _)
  · exact hending.isBreak_of_head

namespace ScanState

/-- The first text of a line leaves the scanner on it. -/
theorem onLine_step {state : ScanState} (h : state.place = .gap) {c : Char}
    (hindent : ¬ isIndent c) (hbreak : ¬ isBreak c) : (state.step c).2.OnLine := by
  rw [ScanState.step]
  rcases mode_of_gap h with ⟨afterReturn, hmode⟩ | ⟨hmode, -⟩
  · have hfeed : ¬ (c = '\n' ∧ afterReturn) := by
      rintro ⟨rfl, -⟩
      exact hbreak rfl
    rw [hmode]
    simp only [ScanState.lineStart]
    rw [if_neg hindent, if_neg hfeed, if_neg hbreak]
    exact (StaysOnLine.word hbreak).state
  · rw [hmode]
    exact (StaysOnLine.word hbreak).state

/-- So it is there at the end of the line. -/
theorem onLine_after_text {state : ScanState} (h : state.place = .gap) (htidy : state.Tidy)
    {indent text : List Char} {c : Char} (hindent : ∀ d ∈ indent, isIndent d)
    (hc : ¬ isIndent c) (hunbroken : Unbroken .gap (indent ++ c :: text)) :
    (state.after (indent ++ c :: text)).OnLine := by
  have htext := hunbroken.of_append
  rw [Place.gap_after_indent hindent] at htext
  have hbreak : ¬ isBreak c := fun hbreak => Bool.false_ne_true (htext.1 hbreak)
  obtain ⟨hplace, hindented⟩ := htidy.after indent
  rw [h, Place.gap_after_indent hindent] at hplace
  obtain ⟨hnext, hstepped⟩ := hindented.step c
  rw [hplace] at hnext
  have hafter : state.after (indent ++ c :: text)
      = ((state.after indent).step c).2.after text :=
    List.foldl_append
  rw [hafter]
  exact (onLine_after (onLine_step hplace hc hbreak) hstepped (hnext ▸ htext.2)).1

/-- At the end of a line that is not blank, the token under way is
completed. -/
theorem BeforeLine.scan_end {state : ScanState} {cs rest : List Char} {line : LogicalLine}
    (h : state.BeforeLine cs) (hfirst : FirstLine .gap cs line rest)
    (hblank : line.isBlank = false) (hspan : (Place.gap.after line.content).inSpan = false) :
    (state.after line.content).scan (line.ending ++ rest)
      = (state.after line.content).finish.toList
        ++ (state.after line.content).fresh.scan (line.ending ++ rest) := by
  rcases eq_indent_append line.content with hall | ⟨indent, c, text, hcontent, hindent, hc⟩
  · -- Spaces and tabs alone are no blank line at the end of the script.
    rw [LogicalLine.isBlank, List.all_eq_true.2 hall, Bool.and_true, Bool.not_eq_false',
      List.isEmpty_iff] at hblank
    rcases hfirst.ending with ⟨-, hrest⟩ | ⟨-, hending⟩
    · rw [hblank, hrest]
      exact (List.append_nil _).symm
    · rw [hblank] at hending
      cases hending
  · have hplace : (state.after line.content).place.inSpan = false := by
      rw [(h.tidy.after line.content).1, h.place_eq]
      exact hspan
    have hon : (state.after line.content).OnLine := by
      have hunbroken := hfirst.unbroken
      rw [hcontent] at hunbroken ⊢
      exact onLine_after_text h.place_eq h.tidy hindent hc hunbroken
    exact scan_of_end hon hplace hfirst.isBreak_of_head

end ScanState

end EventRules

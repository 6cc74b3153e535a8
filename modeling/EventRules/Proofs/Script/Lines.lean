import EventRules.Script.Token.Scan

/-!
# `EventRules.Proofs.Script.Lines`: the lines that tokens stand on

The scanner counts lines as it goes, and a token keeps the line of its
first character. Two facts about these numbers:

* `ScanState.scan_ahead`: what the scanner finds does not depend on the
  line it starts from. A scan that starts some lines further down finds
  the same tokens as many lines further down.
* `tokenize_sorted`: tokens come in the order of their lines.

`ScanState.Ahead` relates the states of the two scans. It leaves the line
of a token under way open while the token has no text.
-/

set_option autoImplicit false

namespace EventRules

/-- The token as many lines further down. -/
def Token.shift (lines : Nat) (token : Token) : Token :=
  { token with line := token.line + lines }

namespace ScanState

@[simp] theorem isEmpty_push (text : String) (c : Char) : (text.push c).isEmpty = false := by
  rw [String.isEmpty_eq_false_iff]
  exact String.push_ne_empty

/-- A token is completed when there is text for one. -/
theorem token?_eq_some_iff {state : ScanState} {kind : TokenKind} {token : Token} :
    state.token? kind = some token
      ↔ state.text.isEmpty = false ∧ token = ⟨kind, state.text, state.start⟩ := by
  rw [ScanState.token?]
  cases state.text.isEmpty with
  | true => simp
  | false => simp [eq_comm]

theorem completed_append (state : ScanState) (cs ds : List Char) :
    state.completed (cs ++ ds) = state.completed cs ++ (state.after cs).completed ds := by
  induction cs generalizing state with
  | nil => rfl
  | cons c cs ih => simp [completed, after, ih]

/-- The tokens of a script that goes up to some character. -/
theorem scan_eq_completed (state : ScanState) (cs : List Char) :
    state.scan cs = state.completed cs ++ (state.after cs).finish.toList := by
  have happend := scan_append state cs []
  rw [List.append_nil] at happend
  exact happend

/-! ### The same scan further down -/

/-- The first state is the second one, a number of lines further
down. -/
structure Ahead (lines : Nat) (state other : ScanState) : Prop where
  mode_eq : state.mode = other.mode
  text_eq : state.text = other.text
  line_eq : state.line = other.line + lines
  start_eq : state.text.isEmpty = false → state.start = other.start + lines

namespace Ahead

variable {lines : Nat} {state other : ScanState}

theorem enter (h : Ahead lines state other) (mode : ScanMode) :
    Ahead lines (state.enter mode) (other.enter mode) :=
  ⟨rfl, h.text_eq, h.line_eq, h.start_eq⟩

theorem cleared (h : Ahead lines state other) : Ahead lines state.cleared other.cleared :=
  ⟨h.mode_eq, rfl, h.line_eq, fun hempty => by cases hempty⟩

/-- The start of a line below. -/
theorem newline (h : Ahead lines state other) (afterReturn : Bool) :
    Ahead lines
      { state.cleared with mode := .lineStart afterReturn, line := state.line + 1 }
      { other.cleared with mode := .lineStart afterReturn, line := other.line + 1 } := by
  have hline : state.line + 1 = other.line + 1 + lines := by
    rw [h.line_eq]
    omega
  exact ⟨rfl, rfl, hline, fun hempty => by cases hempty⟩

theorem push (h : Ahead lines state other) (c : Char) :
    Ahead lines (state.push c) (other.push c) := by
  refine ⟨h.mode_eq, ?_, h.line_eq, ?_⟩
  · simp only [ScanState.push, h.text_eq]
  · -- A token that begins here starts on the line of the scan.
    intro _
    simp only [ScanState.push, ← h.text_eq]
    cases hempty : state.text.isEmpty with
    | true => exact h.line_eq
    | false => exact h.start_eq hempty

theorem add (h : Ahead lines state other) (cs : List Char) :
    Ahead lines (state.add cs) (other.add cs) := by
  induction cs generalizing state other with
  | nil => exact h
  | cons c cs ih =>
    show Ahead lines ((state.push c).add cs) ((other.push c).add cs)
    exact ih (h.push c)

theorem count (h : Ahead lines state other) (c : Char) :
    Ahead lines (state.count c) (other.count c) := by
  show Ahead lines (if c = '\n' then { state with line := state.line + 1 } else state)
    (if c = '\n' then { other with line := other.line + 1 } else other)
  by_cases hc : c = '\n'
  · rw [if_pos hc, if_pos hc]
    have hline : state.line + 1 = other.line + 1 + lines := by
      rw [h.line_eq]
      omega
    exact ⟨h.mode_eq, h.text_eq, hline, h.start_eq⟩
  · rw [if_neg hc, if_neg hc]
    exact h

theorem token? (h : Ahead lines state other) (kind : TokenKind) :
    state.token? kind = (other.token? kind).map (Token.shift lines) := by
  simp only [ScanState.token?]
  rw [← h.text_eq]
  cases hempty : state.text.isEmpty with
  | true => rfl
  | false =>
    rw [h.start_eq hempty]
    rfl

/-- Two results of a step: the tokens are as many lines apart as the
states after them. -/
def Both (lines : Nat) (result other : Option Token × ScanState) : Prop :=
  result.1 = other.1.map (Token.shift lines) ∧ Ahead lines result.2 other.2

theorem word (h : Ahead lines state other) (c : Char) :
    Both lines (state.word c) (other.word c) := by
  -- Both scans have the same text, so they take the same branch.
  simp only [ScanState.word]
  rw [← h.text_eq]
  by_cases hbreak : Text.isBreak c
  · rw [if_pos hbreak, if_pos hbreak]
    exact ⟨h.token? .word, h.newline _⟩
  rw [if_neg hbreak, if_neg hbreak]
  by_cases hindent : Text.isIndent c
  · rw [if_pos hindent, if_pos hindent]
    exact ⟨h.token? .word, h.cleared.enter .word⟩
  rw [if_neg hindent, if_neg hindent]
  by_cases hpercent : c = '%'
  · rw [if_pos hpercent, if_pos hpercent]
    exact ⟨rfl, h.enter _⟩
  rw [if_neg hpercent, if_neg hpercent]
  by_cases hhash : c = '#' ∧ state.text.isEmpty
  · rw [if_pos hhash, if_pos hhash]
    exact ⟨rfl, h.enter .hash⟩
  · rw [if_neg hhash, if_neg hhash]
    exact ⟨rfl, (h.push c).enter .word⟩

theorem lineStart (h : Ahead lines state other) (afterReturn : Bool) (c : Char) :
    Both lines (state.lineStart afterReturn c) (other.lineStart afterReturn c) := by
  simp only [ScanState.lineStart]
  by_cases hindent : Text.isIndent c
  · rw [if_pos hindent, if_pos hindent]
    exact ⟨rfl, h.enter _⟩
  rw [if_neg hindent, if_neg hindent]
  by_cases hreturn : c = '\n' ∧ afterReturn
  · rw [if_pos hreturn, if_pos hreturn]
    exact ⟨rfl, h.enter _⟩
  rw [if_neg hreturn, if_neg hreturn]
  by_cases hbreak : Text.isBreak c
  · rw [if_pos hbreak, if_pos hbreak]
    exact ⟨rfl, ((h.push c).count c).enter _⟩
  · rw [if_neg hbreak, if_neg hbreak]
    exact ⟨h.token? .emptyLine, (h.cleared.word c).2⟩

theorem hash (h : Ahead lines state other) (c : Char) :
    Both lines (state.hash c) (other.hash c) := by
  simp only [ScanState.hash]
  by_cases hbreak : Text.isBreak c
  · rw [if_pos hbreak, if_pos hbreak]
    exact h.word c
  rw [if_neg hbreak, if_neg hbreak]
  by_cases hblank : Text.isBlank c
  · rw [if_pos hblank, if_pos hblank]
    exact ⟨rfl, h.enter .comment⟩
  · rw [if_neg hblank, if_neg hblank]
    exact (h.push '#').word c

theorem comment (h : Ahead lines state other) (c : Char) :
    Both lines (state.comment c) (other.comment c) := by
  simp only [ScanState.comment]
  by_cases hbreak : Text.isBreak c
  · rw [if_pos hbreak, if_pos hbreak]
    exact h.word c
  · rw [if_neg hbreak, if_neg hbreak]
    exact ⟨rfl, h⟩

theorem group (h : Ahead lines state other) (escaping : Bool) (c : Char) :
    Both lines (state.group escaping c) (other.group escaping c) := by
  simp only [ScanState.group]
  cases Text.Span.read escaping c with
  | add cs => exact ⟨rfl, ((h.add cs).count c).enter _⟩
  | escape => exact ⟨rfl, h.enter _⟩
  | close => exact ⟨h.token? .group, h.cleared.enter .word⟩

/-- A step keeps the distance. -/
theorem step (h : Ahead lines state other) (c : Char) :
    Both lines (state.step c) (other.step c) := by
  simp only [ScanState.step]
  rw [← h.mode_eq]
  cases state.mode with
  | lineStart afterReturn => exact h.lineStart afterReturn c
  | word => exact h.word c
  | hash => exact h.hash c
  | comment => exact h.comment c
  | group escaping => exact h.group escaping c

theorem finish (h : Ahead lines state other) :
    state.finish = other.finish.map (Token.shift lines) := by
  simp only [ScanState.finish]
  rw [← h.mode_eq]
  cases state.mode with
  | lineStart afterReturn => exact h.token? .emptyLine
  | word => exact h.token? .word
  | hash => exact h.token? .word
  | comment => exact h.token? .word
  | group escaping => exact (h.add _).token? .group

end Ahead

/-- A scan some lines further down finds the same tokens, as many lines
further down. -/
theorem scan_ahead {lines : Nat} {state other : ScanState} (h : Ahead lines state other)
    (cs : List Char) : state.scan cs = (other.scan cs).map (Token.shift lines) := by
  induction cs generalizing state other with
  | nil =>
    rw [scan, scan, h.finish]
    cases other.finish <;> rfl
  | cons c cs ih =>
    obtain ⟨htoken, hnext⟩ := h.step c
    rw [scan, scan, htoken, ih hnext, List.map_append]
    cases (other.step c).1 <;> rfl

/-! ### The order of lines -/

/-- The line of the token under way, or of the next one at the
earliest. -/
def due (state : ScanState) : Nat :=
  if state.text.isEmpty then state.line else state.start

theorem due_push (state : ScanState) (c : Char) : (state.push c).due = state.due := by
  show (if (state.text.push c).isEmpty then state.line
    else if state.text.isEmpty then state.line else state.start) = state.due
  rw [isEmpty_push]
  rfl

theorem due_add (state : ScanState) (cs : List Char) : (state.add cs).due = state.due := by
  induction cs generalizing state with
  | nil => rfl
  | cons c cs ih =>
    show ((state.push c).add cs).due = state.due
    rw [ih (state.push c), due_push]

theorem line_add (state : ScanState) (cs : List Char) : (state.add cs).line = state.line := by
  induction cs generalizing state with
  | nil => rfl
  | cons c cs ih =>
    show ((state.push c).add cs).line = state.line
    rw [ih (state.push c)]
    rfl

theorem text_add (state : ScanState) (cs : List Char) :
    (state.add cs).text = state.text ++ String.ofList cs := by
  induction cs generalizing state with
  | nil => exact (String.append_empty).symm
  | cons c cs ih =>
    have hpush : (state.push c).text = state.text.push c := rfl
    show ((state.push c).add cs).text = _
    rw [ih (state.push c), hpush, ← String.toList_inj]
    simp

theorem line_of_token? {state : ScanState} {kind : TokenKind} {token : Token}
    (h : token ∈ state.token? kind) : token.line = state.due := by
  obtain ⟨htext, rfl⟩ := token?_eq_some_iff.1 h
  rw [due, htext]
  rfl

/-- Counting a line feed moves what is due no further than the line. -/
theorem due_count {state : ScanState} (hle : state.due ≤ state.line) (c : Char) :
    state.due ≤ (state.count c).due ∧ (state.count c).due ≤ (state.count c).line := by
  rw [count]
  by_cases hc : c = '\n'
  · rw [if_pos hc]
    simp only [due] at hle ⊢
    cases hempty : state.text.isEmpty with
    | true => simp
    | false =>
      simp only [hempty, Bool.false_eq_true, if_false] at hle ⊢
      omega
  · rw [if_neg hc]
    exact ⟨Nat.le_refl _, hle⟩

/-- What is due stays where it is once it has text. -/
theorem due_count_of_text {state : ScanState} (h : state.text.isEmpty = false) (c : Char) :
    (state.count c).due = state.due := by
  rw [count]
  split
  · rw [due, due, h]
    rfl
  · rfl

theorem line_count (state : ScanState) (c : Char) :
    (state.count c).line = state.line + [c].count '\n' := by
  rw [count]
  by_cases hc : c = '\n'
  · rw [if_pos hc, hc]
    rfl
  · rw [if_neg hc, List.count_eq_zero.2 (by simpa using Ne.symm hc)]
    rfl

theorem text_count (state : ScanState) (c : Char) : (state.count c).text = state.text := by
  rw [count]
  split <;> rfl

/-- What a step may come to when a token is due on some line: a token it
completes stands there, and the next one is due no earlier. -/
structure Onward (line : Nat) (result : Option Token × ScanState) : Prop where
  line_eq : ∀ token ∈ result.1, token.line = line
  le_due : line ≤ result.2.due
  due_le : result.2.due ≤ result.2.line

namespace Onward

variable {state next : ScanState}

/-- Completing the token under way. -/
theorem token? (hle : state.due ≤ state.line) (kind : TokenKind)
    (hline : state.line ≤ next.due) (hnext : next.due ≤ next.line) :
    Onward state.due (state.token? kind, next) :=
  ⟨fun _ h => line_of_token? h, Nat.le_trans hle hline, hnext⟩

/-- Going on with the token under way. -/
theorem none (hline : state.due ≤ next.due) (hnext : next.due ≤ next.line) :
    Onward state.due (none, next) :=
  ⟨fun _ h => (Option.not_mem_none _ h).elim, hline, hnext⟩

theorem count (hle : state.due ≤ state.line) (cs : List Char) (c : Char)
    (mode : ScanMode) :
    Onward state.due (.none, ((state.add cs).count c).enter mode) := by
  have hadd : (state.add cs).due ≤ (state.add cs).line := by
    rw [due_add, line_add]
    exact hle
  obtain ⟨hdue, hline⟩ := due_count hadd c
  rw [due_add] at hdue
  exact none hdue hline

theorem word (hle : state.due ≤ state.line) (c : Char) :
    Onward state.due (state.word c) := by
  have hpush : (state.push c).due = state.due := due_push state c
  rw [ScanState.word]
  split
  · exact token? hle .word (Nat.le_succ _) (Nat.le_refl _)
  split
  · exact token? hle .word (Nat.le_refl _) (Nat.le_refl _)
  split
  · exact none (Nat.le_refl _) hle
  split
  · exact none (Nat.le_refl _) hle
  · -- The character is the first of a token or one more.
    exact none (Nat.le_of_eq hpush.symm) (Nat.le_trans (Nat.le_of_eq hpush) hle)

theorem lineStart (hle : state.due ≤ state.line) (afterReturn : Bool) (c : Char) :
    Onward state.due (state.lineStart afterReturn c) := by
  rw [ScanState.lineStart]
  split
  · exact none (Nat.le_refl _) hle
  split
  · exact none (Nat.le_refl _) hle
  split
  · exact count hle [c] c _
  · -- The character begins a word of its own, on the line of the scan.
    have hcleared : state.cleared.due ≤ state.cleared.line := Nat.le_refl _
    have hword : Onward state.line (state.cleared.word c) := word hcleared c
    exact token? hle .emptyLine hword.le_due hword.due_le

theorem hash (hle : state.due ≤ state.line) (c : Char) :
    Onward state.due (state.hash c) := by
  rw [ScanState.hash]
  split
  · exact word hle c
  split
  · exact none (Nat.le_refl _) hle
  · have hpush : (state.push '#').due = state.due := due_push state '#'
    rw [← hpush]
    exact word (Nat.le_trans (Nat.le_of_eq hpush) hle) c

theorem comment (hle : state.due ≤ state.line) (c : Char) :
    Onward state.due (state.comment c) := by
  rw [ScanState.comment]
  split
  · exact word hle c
  · exact none (Nat.le_refl _) hle

theorem group (hle : state.due ≤ state.line) (escaping : Bool) (c : Char) :
    Onward state.due (state.group escaping c) := by
  rw [ScanState.group]
  cases Text.Span.read escaping c with
  | add cs => exact count hle cs c _
  | escape => exact none (Nat.le_refl _) hle
  | close => exact token? hle .group (Nat.le_refl _) (Nat.le_refl _)

/-- What is due never moves up. -/
theorem step (hle : state.due ≤ state.line) (c : Char) :
    Onward state.due (state.step c) := by
  rw [ScanState.step]
  cases state.mode with
  | lineStart afterReturn => exact lineStart hle afterReturn c
  | word => exact word hle c
  | hash => exact hash hle c
  | comment => exact comment hle c
  | group escaping => exact group hle escaping c

end Onward

/-- Nor does it move up over several steps. -/
theorem due_after {state : ScanState} (hle : state.due ≤ state.line) (cs : List Char) :
    state.due ≤ (state.after cs).due ∧ (state.after cs).due ≤ (state.after cs).line := by
  induction cs generalizing state with
  | nil => exact ⟨Nat.le_refl _, hle⟩
  | cons c cs ih =>
    have hstep : Onward state.due (state.step c) := .step hle c
    obtain ⟨hdue, hline⟩ := ih hstep.due_le
    exact ⟨Nat.le_trans hstep.le_due hdue, hline⟩

theorem line_of_finish {state : ScanState} {token : Token} (h : token ∈ state.finish) :
    token.line = state.due := by
  rw [finish] at h
  cases hmode : state.mode with
  | group escaping =>
    rw [hmode] at h
    exact (line_of_token? h).trans (due_add state _)
  | _ =>
    rw [hmode] at h
    exact line_of_token? h

/-- No token stands before the line that is due. -/
theorem due_le_of_mem_scan {state : ScanState} (hle : state.due ≤ state.line)
    {cs : List Char} {token : Token} (h : token ∈ state.scan cs) :
    state.due ≤ token.line := by
  induction cs generalizing state with
  | nil => exact Nat.le_of_eq (line_of_finish (Option.mem_toList.1 h)).symm
  | cons c cs ih =>
    have hstep : Onward state.due (state.step c) := .step hle c
    rw [scan, List.mem_append, Option.mem_toList] at h
    rcases h with h | h
    · exact Nat.le_of_eq (hstep.line_eq token h).symm
    · exact Nat.le_trans hstep.le_due (ih hstep.due_le h)

theorem scan_sorted {state : ScanState} (hle : state.due ≤ state.line) (cs : List Char) :
    (state.scan cs).Pairwise (·.line ≤ ·.line) := by
  induction cs generalizing state with
  | nil =>
    rw [scan]
    cases state.finish with
    | none => exact .nil
    | some token => exact List.pairwise_singleton _ token
  | cons c cs ih =>
    have hstep : Onward state.due (state.step c) := .step hle c
    rw [scan]
    cases htoken : (state.step c).1 with
    | none => exact ih hstep.due_le
    | some token =>
      -- All later tokens stand where this one left off, or below.
      refine .cons (fun later hlater => ?_) (ih hstep.due_le)
      rw [hstep.line_eq token htoken]
      exact Nat.le_trans hstep.le_due (due_le_of_mem_scan hstep.due_le hlater)

end ScanState

/-- The number of line breaks in a script, as the scanner counts
them. -/
def lineBreaks (script : String) : Nat :=
  (ScanState.initial.after script.toList).line - 1

/-- The scanner stands on line 1 before the first line break. -/
theorem line_after_initial (script : String) :
    (ScanState.initial.after script.toList).line = 1 + lineBreaks script := by
  -- What is due first is due on line 1, and lines only grow.
  have hline : 1 ≤ (ScanState.initial.after script.toList).line := by
    obtain ⟨hdue, hline⟩ := ScanState.due_after (Nat.le_refl ScanState.initial.due) script.toList
    exact Nat.le_trans hdue hline
  rw [lineBreaks]
  omega

/-- Tokens come in the order of their lines. -/
theorem tokenize_sorted (script : String) :
    (tokenize script).Pairwise (·.line ≤ ·.line) :=
  ScanState.scan_sorted (Nat.le_refl _) _

end EventRules

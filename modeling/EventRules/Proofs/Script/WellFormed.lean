import EventRules.Proofs.Script.LineByLine
import EventRules.Proofs.Script.Prints

/-!
# `EventRules.Proofs.Script.WellFormed`: what the tokens of a script are like

No token is empty, and its text is that of its kind: a word has none of the
characters that end words and is no comment, and a run of blank lines is
made of line breaks. Tokens come in the order of their lines, from line 1
on. `WellTokenized` has all of this.

The order is strict across a line break outside spans. A run of blank lines
may be under way there, but no word and no group is, so these are divided
into the ones before the break, which are those of the script up to there
(`content_step_break`), and the ones after it, which stand on the line of
the scanner or below (`le_line_of_mem_content`). `DividesAt` says so.
-/

set_option autoImplicit false

namespace EventRules

open Text

/-! ### Runs of blank lines -/

theorem Ending.isBreak {ending rest : List Char} (h : Ending ending rest) :
    ∀ c ∈ ending, isBreak c := by
  cases h with
  | feed => exact List.forall_mem_singleton.2 rfl
  | «return» _ => exact List.forall_mem_singleton.2 rfl
  | both => exact List.forall_mem_cons.2 ⟨rfl, List.forall_mem_singleton.2 rfl⟩

/-- What ends a line of a script is a line break. -/
theorem isBreak_of_mem_ending {script : String} {line : LogicalLine}
    (h : line ∈ logicalLines script) : ∀ c ∈ line.ending, isBreak c := by
  refine cutLines_induction (P := fun _ lines => line ∈ lines → ∀ c ∈ line.ending, isBreak c)
    nofun ?_ script.toList h
  intro cs first rest hfirst ih hmem
  rcases List.mem_cons.1 hmem with rfl | hrest
  · rcases hfirst.ending with ⟨hnil, -⟩ | ⟨-, hending⟩
    · rw [hnil]
      exact nofun
    · exact hending.isBreak
  · exact ih hrest

/-- An empty line among the tokens of lines is a run of blank ones. -/
theorem Reads.exists_run {lines : List LogicalLine} {tokens : List Token} (h : Reads lines tokens)
    (hwords : ∀ line ∈ lines, ∀ token ∈ line.tokens, token.isEmptyLine = false) {token : Token}
    (hmem : token ∈ tokens) (hempty : token.isEmptyLine) :
    ∃ run, run ≠ [] ∧ (∀ line ∈ run, line ∈ lines ∧ line.isBlank)
      ∧ token = .ofBlankLines run := by
  induction h with
  | nil => cases hmem
  | @line line lines tokens hline hrest ih =>
    rw [List.forall_mem_cons] at hwords
    rcases List.mem_append.1 hmem with hfirst | hlater
    · rw [hwords.1 token hfirst] at hempty
      cases hempty
    · obtain ⟨run, hne, hrun, htoken⟩ := ih hwords.2 hlater
      exact ⟨run, hne, fun other hother => (hrun other hother).imp_left (List.mem_cons_of_mem _),
        htoken⟩
  | @run run lines tokens hne hrun hhead hrest ih =>
    rw [List.forall_mem_append] at hwords
    rcases List.mem_cons.1 hmem with hfirst | hlater
    · exact ⟨run, hne, fun line hline => ⟨List.mem_append_left _ hline, hrun line hline⟩, hfirst⟩
    · obtain ⟨others, hothers, hblank, htoken⟩ := ih hwords.2 hlater
      exact ⟨others, hothers,
        fun line hline => (hblank line hline).imp_left (List.mem_append_right _), htoken⟩

/-- The text of an empty line is made of line breaks. -/
theorem text_of_isEmptyLine {script : String} {token : Token} (h : token ∈ tokenize script)
    (hempty : token.isEmptyLine) : token.text ≠ "" ∧ ∀ c ∈ token.text.toList, isBreak c := by
  have hwords : ∀ line ∈ logicalLines script, ∀ token ∈ line.tokens, token.isEmptyLine = false :=
    fun _ hline => LogicalLine.isEmptyLine_of_mem hline
  obtain ⟨run, hne, hrun, htoken⟩ :=
    (reads_logicalLines script).exists_run hwords (List.mem_map_of_mem h) hempty
  have htext : token.text = String.ofList (run.flatMap (·.ending)) := congrArg Token.text htoken
  rw [htext, String.toList_ofList]
  constructor
  · -- The first line of the run has a line break.
    obtain ⟨line, hline⟩ := List.exists_mem_of_ne_nil run hne
    have hblank : line.isBlank := (hrun line hline).2
    rw [Ne, ← String.toList_eq_nil_iff, String.toList_ofList, List.flatMap_eq_nil_iff]
    intro hnil
    rw [LogicalLine.isBlank, hnil line hline] at hblank
    cases hblank
  · intro c hc
    obtain ⟨line, hline, hmem⟩ := List.mem_flatMap.1 hc
    exact isBreak_of_mem_ending (hrun line hline).1 c hmem

/-! ### Line breaks between tokens -/

theorem Token.content_append (first second : List Token) :
    content (first ++ second) = content first ++ content second :=
  List.filter_append ..

theorem Token.mem_of_mem_content {token : Token} {tokens : List Token} (h : token ∈ content tokens) :
    token ∈ tokens :=
  (List.mem_filter.1 h).1

namespace ScanState

theorem content_of_emptyLine {tokens : List Token} (h : ∀ token ∈ tokens, token.isEmptyLine) :
    Token.content tokens = [] := by
  rw [Token.content, List.filter_eq_nil_iff]
  intro token htoken
  simp [h token htoken]

/-- A line break outside spans completes the word or the group that the end
of the script would. -/
theorem content_step_break {state : ScanState} (hspan : state.place.inSpan = false) {c : Char}
    (hbreak : isBreak c) :
    Token.content (state.step c).1.toList = Token.content state.finish.toList := by
  cases hmode : state.mode with
  | lineStart afterReturn =>
    have hrun : Token.content (state.token? .emptyLine).toList = [] :=
      content_of_emptyLine fun token htoken => isEmptyLine_of_token? (Option.mem_toList.1 htoken)
    have hnone : (state.lineStart afterReturn c).1 = none := by
      rw [lineStart, if_neg (not_isIndent_of_isBreak hbreak), if_pos hbreak]
      split <;> rfl
    rw [step, finish, hmode]
    simp only
    rw [hnone, hrun]
    rfl
  | _ =>
    have hon : state.OnLine := onLine_of_mode (by rw [hmode]; rfl)
    rw [step_eq_word_of_break hon hspan hbreak, finish_eq_word hon hspan, word, if_pos hbreak]

/-- Where a word may begin, words and groups stand on the line of the
scanner or below. -/
theorem le_line_of_mem_content {state : ScanState} (h : state.place = .gap) {cs : List Char} :
    ∀ token ∈ Token.content (state.scan cs), state.line ≤ token.line := by
  have hend : ∀ state : ScanState, state.place = .gap → Token.content state.finish.toList = [] :=
    fun _ hplace => List.map_eq_nil_iff.1 (unplacedContent_finish hplace)
  induction cs generalizing state with
  | nil =>
    rw [scan, hend state h]
    exact fun _ hmem => absurd hmem List.not_mem_nil
  | cons c cs ih =>
    by_cases hblank : isIndent c ∨ isBreak c
    · obtain ⟨htoken, hnext⟩ := step_blank_of_gap h hblank
      rw [scan, htoken]
      exact fun token hmem => Nat.le_trans (state.line_step c).1 (ih hnext token hmem)
    · -- From its first character on, the text is read on a fresh line.
      rw [not_or] at hblank
      rw [scan_of_gap h hblank.1 hblank.2, Token.content_append, hend state h]
      exact fun token hmem => le_line_of_mem_scan_fresh (Token.mem_of_mem_content hmem)

end ScanState

/-- The words and groups of the script are those of the characters before a
place and those of the characters after it, and the former stand on lines
above those of the latter. -/
def DividesAt (script : String) (before after : List Char) : Prop :=
  ∃ later, Token.content (tokenize script)
        = Token.content (tokenize (String.ofList before)) ++ later
    ∧ later.map Token.unplaced = contentOf (String.ofList after)
    ∧ ∀ token ∈ Token.content (tokenize (String.ofList before)), ∀ other ∈ later,
      token.line < other.line

/-- A script divides at each line break outside spans. -/
theorem dividesAt_of_isBreak {script : String} {before after : List Char} {c : Char}
    (hscript : script.toList = before ++ c :: after) (hbreak : isBreak c)
    (hspan : (ScanState.initial.after before).inGroup = false) :
    DividesAt script before after := by
  rw [ScanState.inGroup_eq_inSpan] at hspan
  obtain ⟨afterReturn, hmode, -⟩ := ScanState.mode_step_break hspan hbreak
  -- The scanner is before a line then, whatever kind of line break it is.
  have hnext : ScanState.initial.after (before ++ [c])
      = ((ScanState.initial.after before).step c).2 := List.foldl_append
  have hplace : ((ScanState.initial.after before).step c).2.place = .gap := by
    rw [ScanState.place, hmode]
  have hfirst : Token.content (tokenize (String.ofList before))
      = Token.content (ScanState.initial.completed (before ++ [c])) := by
    rw [tokenize, String.toList_ofList, ScanState.scan_eq_completed, ScanState.completed_append,
      Token.content_append, Token.content_append, ← ScanState.content_step_break hspan hbreak]
    simp [ScanState.completed]
  have hsplit : tokenize script = ScanState.initial.completed (before ++ [c])
      ++ ((ScanState.initial.after before).step c).2.scan after := by
    rw [← hnext, ← ScanState.scan_append, List.append_assoc, tokenize, hscript]
    rfl
  refine ⟨Token.content (((ScanState.initial.after before).step c).2.scan after), ?_, ?_, ?_⟩
  · rw [hsplit, Token.content_append, hfirst]
  · rw [contentOf, tokenize, String.toList_ofList]
    exact ScanState.unplacedContent_scan hplace rfl after
  · intro token htoken other hother
    rw [hfirst] at htoken
    have hdue : ScanState.initial.due ≤ ScanState.initial.line := Nat.le_refl _
    obtain ⟨-, hpassed⟩ :=
      ScanState.hasPassed_of_mem_completed hdue (Token.mem_of_mem_content htoken)
    rw [hnext] at hpassed
    have hon : ¬ ((ScanState.initial.after before).step c).2.OnLine :=
      fun hon => hon afterReturn hmode
    exact Nat.lt_of_lt_of_le (hpassed.resolve_left hon)
      (ScanState.le_line_of_mem_content hplace other hother)

/-! ### Scripts -/

/-- What the tokens of a script are like. -/
structure WellTokenized (script : String) : Prop where
  /-- No token is empty. -/
  text_ne : ∀ token ∈ tokenize script, token.text ≠ ""
  /-- A word has no character that ends words and no percent sign, and does
  not begin a comment. -/
  word : ∀ token ∈ tokenize script, token.kind = .word → IsWord token.text.toList
  /-- A run of blank lines is made of line breaks. -/
  emptyLine : ∀ token ∈ tokenize script, token.kind = .emptyLine →
    ∀ c ∈ token.text.toList, isBreak c
  /-- Lines are counted from 1. -/
  one_le : ∀ token ∈ tokenize script, 1 ≤ token.line
  /-- Tokens come in the order of their lines. -/
  sorted : (tokenize script).Pairwise (·.line ≤ ·.line)
  /-- Between a word or group before a line break outside spans and one after
  it, the lines are strictly in order. -/
  divides : ∀ before c after, script.toList = before ++ c :: after → isBreak c →
    (ScanState.initial.after before).inGroup = false → DividesAt script before after

/-- The tokens of every script are well formed. -/
theorem tokenize_wellTokenized (script : String) : WellTokenized script where
  text_ne := by
    intro token htoken
    have hlegible := tokenize_legible script token htoken
    rw [Token.Legible] at hlegible
    cases hkind : token.kind with
    | word =>
      rw [hkind] at hlegible
      exact fun hnil => hlegible.ne_nil (String.toList_eq_nil_iff.2 hnil)
    | group =>
      rw [hkind] at hlegible
      exact hlegible
    | emptyLine => exact (text_of_isEmptyLine htoken (decide_eq_true hkind)).1
  word := by
    intro token htoken hkind
    have hlegible := tokenize_legible script token htoken
    rw [Token.Legible, hkind] at hlegible
    exact hlegible
  emptyLine token htoken hkind := (text_of_isEmptyLine htoken (decide_eq_true hkind)).2
  one_le token htoken := ScanState.due_le_of_mem_scan (Nat.le_refl _) htoken
  sorted := tokenize_sorted script
  divides _ _ _ hscript hbreak hspan := dividesAt_of_isBreak hscript hbreak hspan

/-- A carriage return on a line without text, which the scanner does not
count, stands between a group with a line feed and a word. -/
theorem tokenize_wellTokenized_returns :
    tokenize "a %b\n% \r\n\r d"
        = [⟨.word, "a", 1⟩, ⟨.group, "b\n", 1⟩, ⟨.emptyLine, "\r", 3⟩, ⟨.word, "d", 3⟩]
      ∧ DividesAt "a %b\n% \r\n\r d" "a %b\n% \r\n".toList " d".toList :=
  ⟨by decide +kernel,
    (tokenize_wellTokenized "a %b\n% \r\n\r d").divides _ '\r' _ (by decide +kernel) rfl
      (by decide +kernel)⟩

end EventRules

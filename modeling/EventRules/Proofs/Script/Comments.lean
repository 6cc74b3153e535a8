import EventRules.Proofs.Firing.Echo
import EventRules.Proofs.Grammar.Moved
import EventRules.Proofs.Script.LineStarts

/-!
# `EventRules.Proofs.Script.Comments`: comments make no difference

A comment may be put into a script in two places: on a line of its own
between two logical lines, and at the end of a line that is not blank.
What its text says does not matter. A percent sign in it opens no span.

* At the end of a line a comment changes no token (`tokenize_addComment`).
* A line of its own may divide a run of blank lines, which then makes two
  tokens and not one. It makes no run where there is none. So the blocks
  stay what they are, with lines further down from there on
  (`Block.split_tokenize_commentLine`).

`ofScript_comments` has both, the second one in terms of rules and errors.
A comment does not move the line that a factory puts its error on, which
is why `Platform.Unlined` is assumed.
-/

set_option autoImplicit false

namespace EventRules

open Text

namespace LogicalLine

/-- The script of which these are the lines. -/
def script (lines : List LogicalLine) : String :=
  String.ofList (lines.flatMap chars)

/-- A line with nothing but a comment, after spaces and tabs. -/
def ofComment (indent comment : List Char) : LogicalLine :=
  ⟨indent ++ '#' :: comment, ['\n']⟩

/-- The line with a comment at its end. -/
def addComment (comment : List Char) (line : LogicalLine) : LogicalLine :=
  { line with content := line.content ++ ' ' :: '#' :: comment }

theorem toList_script (lines : List LogicalLine) : (script lines).toList = lines.flatMap chars := by
  rw [script, String.toList_ofList]

theorem script_append (before after : List LogicalLine) :
    script (before ++ after) = script before ++ script after := by
  rw [script, List.flatMap_append, String.ofList_append]
  rfl

theorem script_cons (line : LogicalLine) (lines : List LogicalLine) :
    script (line :: lines) = String.ofList line.chars ++ script lines := by
  rw [script, List.flatMap_cons, String.ofList_append]
  rfl

/-- A script is the script of its lines. -/
theorem script_logicalLines (text : String) : script (logicalLines text) = text := by
  rw [script, flatMap_chars_logicalLines, String.ofList_toList]

end LogicalLine

/-- The number that a line has after another line was put in below the
first ones. -/
def lineBelow (lines line : Nat) : Nat :=
  if line ≤ lines then line else line + 1

theorem lineBelow_injective (lines : Nat) : Function.Injective (lineBelow lines) := by
  intro a b h
  unfold lineBelow at h
  split at h <;> split at h <;> omega

/-- The tokens of the first lines stay where they are. -/
theorem map_lineBelow_of_le {lines : Nat} {tokens : List Token}
    (h : ∀ token ∈ tokens, token.line ≤ lines) :
    tokens.map (Token.relocate (lineBelow lines)) = tokens := by
  refine (List.map_congr_left fun token htoken => ?_).trans (List.map_id tokens)
  have hsame : lineBelow lines token.line = token.line := if_pos (h token htoken)
  rw [Token.relocate, hsame]
  rfl

/-- Those of the lines after them are one line further down. -/
theorem map_lineBelow_of_lt {lines : Nat} {tokens : List Token}
    (h : ∀ token ∈ tokens, lines < token.line) :
    tokens.map (Token.relocate (lineBelow lines)) = tokens.map (Token.shift 1) := by
  refine List.map_congr_left fun token htoken => ?_
  have hbelow : lineBelow lines token.line = token.line + 1 :=
    if_neg (Nat.not_le_of_lt (h token htoken))
  rw [Token.relocate, hbelow, Token.shift]

/-! ### Runs of blank lines -/

namespace Block

/-- Runs of blank lines at the start are part of no block. -/
theorem split_runs {runs : List Token} (hruns : ∀ token ∈ runs, token.isEmptyLine)
    (rest : List Token) : split (runs ++ rest) = split rest := by
  induction runs with
  | nil => rfl
  | cons blank runs ih =>
    rw [List.forall_mem_cons] at hruns
    rw [List.cons_append, split_cons hruns.1, ih hruns.2]

/-- How many runs of blank lines there are between two blocks does not
matter, if there is one. -/
theorem split_between (before after : List Token) {runs others : List Token}
    (hruns : ∀ token ∈ runs, token.isEmptyLine) (hothers : ∀ token ∈ others, token.isEmptyLine)
    (hnil : runs = [] ↔ others = []) :
    split (before ++ (runs ++ after)) = split (before ++ (others ++ after)) := by
  cases runs with
  | nil => rw [hnil.1 rfl]
  | cons blank runs =>
    cases others with
    | nil => cases hnil.2 rfl
    | cons other others =>
      rw [List.forall_mem_cons] at hruns hothers
      rw [List.cons_append, List.cons_append, split_append hruns.1, split_append hothers.1,
        split_runs hruns.2, split_runs hothers.2]

end Block

namespace ScanState

theorem isEmptyLine_of_mem_run {state : ScanState} :
    ∀ token ∈ (state.token? .emptyLine).toList, token.isEmptyLine :=
  fun _ h => isEmptyLine_of_token? (Option.mem_toList.1 h)

theorem run_eq_nil_iff {state : ScanState} {kind : TokenKind} :
    (state.token? kind).toList = [] ↔ state.text.isEmpty := by
  rw [Option.toList_eq_nil_iff, token?_eq_none_iff]

/-! ### A line of its own -/

/-- A comment line ends the run of blank lines under way, and leaves the
scanner before the next line. -/
theorem BeforeLine.scan_commentLine {state : ScanState} {cs : List Char} (h : state.BeforeLine cs)
    {indent comment : List Char} (hindent : ∀ c ∈ indent, isIndent c)
    (hcomment : CommentText comment) :
    ∃ run next : ScanState, run.text.isEmpty = state.text.isEmpty
      ∧ next.BeforeLine cs ∧ next.text.isEmpty ∧ next.line = state.line + 1
      ∧ state.scan (indent ++ '#' :: (comment ++ '\n' :: cs))
        = (run.token? .emptyLine).toList ++ next.scan cs := by
  have hlayout : ∀ c ∈ indent, isLayout c := fun c hc => by
    rw [isLayout, hindent c hc, Bool.true_or]
  have hnone : ∀ c ∈ indent, ¬ isBreak c := fun c hc hbreak =>
    not_isIndent_of_isBreak hbreak (hindent c hc)
  -- A line feed that belongs to a carriage return does not come here.
  have hbefore : state.BeforeLine (indent ++ '#' :: (comment ++ '\n' :: cs)) := by
    obtain ⟨afterReturn, hmode, -⟩ := h
    refine ⟨afterReturn, hmode, fun _ hhead => ?_⟩
    cases indent with
    | nil => cases hhead
    | cons c indent =>
      cases hhead
      exact hnone '\n' List.mem_cons_self rfl
  obtain ⟨run, hrun, hscan⟩ := hbefore.scan_eq
  rw [List.takeWhile_append_of_pos hlayout, List.takeWhile_cons_of_neg (by decide),
    List.append_nil] at hrun
  rw [List.dropWhile_append_of_pos hlayout, List.dropWhile_cons_of_neg (by decide),
    scan_fresh_comment run hcomment (fun _ hc => by cases hc; rfl)] at hscan
  refine ⟨run, (run.fresh.step '\n').2, ?_, beforeLine_of_mode rfl cs, rfl, ?_, hscan⟩
  · have hany : indent.any isBreak = false := List.any_eq_false.2 hnone
    rw [hrun.text_isEmpty, hany]
    exact Bool.and_true _
  · have hcount : indent.count '\n' = 0 :=
      List.count_eq_zero.2 fun hmem => hnone '\n' hmem rfl
    show run.line + 1 = state.line + 1
    rw [hrun.line_eq, hcount]

end ScanState

/-- A comment line leaves the blocks as they are, with the lines after it
one further down. -/
theorem Block.split_tokenize_commentLine {first second : String}
    (h : (ScanState.initial.after first.toList).BeforeLine second.toList)
    {indent comment : List Char} (hindent : ∀ c ∈ indent, isIndent c)
    (hcomment : CommentText comment) :
    split (tokenize (first ++ String.ofList (LogicalLine.ofComment indent comment).chars ++ second))
      = (split (tokenize (first ++ second))).map
          (List.map (Token.relocate (lineBelow (lineBreaks first)))) := by
  have hline : (ScanState.initial.after first.toList).line = 1 + lineBreaks first :=
    line_after_initial first
  obtain ⟨run, middle, hrun, hmiddle, htext, hbelow, hscan⟩ :=
    h.scan_commentLine hindent hcomment
  obtain ⟨later, hlater, hnew⟩ := hmiddle.scan_eq
  obtain ⟨next, hnext, hold⟩ := h.scan_eq
  have hfront : (ScanState.initial.completed first.toList).map
        (Token.relocate (lineBelow (lineBreaks first)))
      = ScanState.initial.completed first.toList := by
    refine map_lineBelow_of_le fun token htoken => ?_
    have hlt := ScanState.line_lt_of_mem_completed h htoken
    omega
  have hrest : (next.fresh.scan (second.toList.dropWhile isLayout)).map
        (Token.relocate (lineBelow (lineBreaks first)))
      = later.fresh.scan (second.toList.dropWhile isLayout) := by
    have hlines : later.line = next.line + 1 := by
      rw [hlater.line_eq, hbelow, hnext.line_eq]
      omega
    rw [ScanState.scan_ahead (ScanState.ahead_fresh hlines)]
    refine map_lineBelow_of_lt fun token htoken => ?_
    have hle := ScanState.le_line_of_mem_scan_fresh htoken
    rw [hnext.line_eq] at hle
    omega
  have hchars : (first ++ String.ofList (LogicalLine.ofComment indent comment).chars
        ++ second).toList
      = first.toList ++ (indent ++ '#' :: (comment ++ '\n' :: second.toList)) := by
    simp [LogicalLine.ofComment, LogicalLine.chars]
  rw [← split_relocate, tokenize, tokenize, hchars, String.toList_append,
    ScanState.scan_append _ first.toList, ScanState.scan_append _ first.toList, hscan, hnew, hold,
    List.map_append, List.map_append, hfront, hrest, ← List.append_assoc (run.token? _).toList]
  refine split_between _ _ ?_ ?_ ?_
  · rw [List.forall_mem_append]
    exact ⟨ScanState.isEmptyLine_of_mem_run, ScanState.isEmptyLine_of_mem_run⟩
  · rw [List.forall_mem_map]
    exact ScanState.isEmptyLine_of_mem_run
  · -- There is a run on either side exactly if there is a line break.
    rw [List.append_eq_nil_iff, List.map_eq_nil_iff, ScanState.run_eq_nil_iff,
      ScanState.run_eq_nil_iff, ScanState.run_eq_nil_iff, hrun, hlater.text_isEmpty, htext,
      hnext.text_isEmpty, Bool.true_and, Bool.and_eq_true]

/-! ### The end of a line -/

/-- A comment at the end of a line that is not blank changes no token. -/
theorem tokenize_addComment {script : String} {before after : List LogicalLine}
    {line : LogicalLine} (hlines : logicalLines script = before ++ line :: after)
    (hblank : line.isBlank = false) (hspan : (Place.gap.after line.content).inSpan = false)
    {comment : List Char} (hcomment : CommentText comment) :
    tokenize (LogicalLine.script (before ++ line.addComment comment :: after))
      = tokenize script := by
  have hmore : line :: after = [] → ∀ other ∈ before.getLast?, other.ending ≠ [] :=
    fun hnil => absurd hnil (List.cons_ne_nil line after)
  obtain ⟨hbefore, hrest⟩ :=
    (ScanState.beforeLine_initial script.toList).after_lines hlines hmore
  obtain ⟨hfirst, -⟩ := firstLine_of_cutLines hrest
  have hplace : ((ScanState.initial.after (before.flatMap LogicalLine.chars)).after
      line.content).place.inSpan = false := by
    rw [(hbefore.tidy.after line.content).1, hbefore.place_eq]
    exact hspan
  have hchars : script.toList = before.flatMap LogicalLine.chars
      ++ (line.content ++ (line.ending ++ after.flatMap LogicalLine.chars)) := by
    rw [← flatMap_chars_logicalLines, hlines, List.flatMap_append, List.flatMap_cons,
      LogicalLine.chars, List.append_assoc]
  have hadded : (before ++ line.addComment comment :: after).flatMap LogicalLine.chars
      = before.flatMap LogicalLine.chars ++ (line.content
        ++ (' ' :: '#' :: (comment ++ (line.ending ++ after.flatMap LogicalLine.chars)))) := by
    rw [List.flatMap_append, List.flatMap_cons]
    simp [LogicalLine.chars, LogicalLine.addComment]
  -- Up to the comment the scans are the same, and then both complete the
  -- token under way.
  rw [tokenize, tokenize, LogicalLine.script, String.toList_ofList, hadded, hchars,
    ScanState.scan_append, ScanState.scan_append, ScanState.scan_append, ScanState.scan_append,
    ScanState.scan_space_comment (hbefore.tidy.after line.content).2 hplace hcomment
      hfirst.isBreak_of_head,
    hbefore.scan_end hfirst hblank hspan]

/-! ### Rules and errors -/

namespace Ruleset

variable {φ α ε : Type} [Host φ α ε]

/-- A comment line between two lines, or before the first or after the
last one, moves the lines of rules and errors that come after it one
down, and changes nothing else. -/
theorem ofScript_ofComment {platform : Platform φ ε} (hplatform : platform.Unlined)
    {script : String} {before after : List LogicalLine}
    (hlines : logicalLines script = before ++ after)
    (hended : ∀ line ∈ before.getLast?, line.ending ≠ []) {indent comment : List Char}
    (hindent : ∀ c ∈ indent, isIndent c) (hcomment : CommentText comment) :
    ofScript (α := α) platform
        (LogicalLine.script (before ++ LogicalLine.ofComment indent comment :: after))
      = match ofScript platform script with
        | .error error =>
          .error (error.relocate (lineBelow (lineBreaks (LogicalLine.script before))))
        | .ok ruleset =>
          .ok (ruleset.relocate (lineBelow (lineBreaks (LogicalLine.script before)))) := by
  obtain ⟨hbefore, -⟩ :=
    (ScanState.beforeLine_initial script.toList).after_lines hlines fun _ => hended
  have hscript : script = LogicalLine.script before ++ LogicalLine.script after := by
    rw [← LogicalLine.script_append, ← hlines, LogicalLine.script_logicalLines]
  have hadded : LogicalLine.script (before ++ LogicalLine.ofComment indent comment :: after)
      = LogicalLine.script before
        ++ String.ofList (LogicalLine.ofComment indent comment).chars
        ++ LogicalLine.script after := by
    rw [LogicalLine.script_append, LogicalLine.script_cons, String.append_assoc]
  rw [← LogicalLine.toList_script, ← LogicalLine.toList_script] at hbefore
  rw [hadded, hscript]
  exact ofTokens_of_split_relocate hplatform (lineBelow_injective _)
    (Block.split_tokenize_commentLine hbefore hindent hcomment)

/-- Comments make no difference, whatever they say. A line with nothing
but a comment leaves the rules or the error of a script as they are,
except that lines after it are one further down. A comment at the end of
a line that is not blank leaves the tokens as they are. -/
theorem ofScript_comments {platform : Platform φ ε} (hplatform : platform.Unlined)
    (script : String) {comment : List Char} (hcomment : CommentText comment) :
    (∀ before after indent, logicalLines script = before ++ after →
        (∀ line ∈ before.getLast?, line.ending ≠ []) → (∀ c ∈ indent, isIndent c) →
        ofScript (α := α) platform
            (LogicalLine.script (before ++ LogicalLine.ofComment indent comment :: after))
          = match ofScript platform script with
            | .error error =>
              .error (error.relocate (lineBelow (lineBreaks (LogicalLine.script before))))
            | .ok ruleset =>
              .ok (ruleset.relocate (lineBelow (lineBreaks (LogicalLine.script before)))))
      ∧ ∀ before line after, logicalLines script = before ++ line :: after →
        line.isBlank = false → (Place.gap.after line.content).inSpan = false →
        tokenize (LogicalLine.script (before ++ line.addComment comment :: after))
          = tokenize script := by
  constructor
  · intro before after indent hlines hended hindent
    exact ofScript_ofComment hplatform hlines hended hindent hcomment
  · intro before line after hlines hblank hspan
    exact tokenize_addComment hlines hblank hspan hcomment

/-- A comment with percent signs and keywords in it, first below a blank
line that a carriage return and a line feed end, and then at the end of a
line. The second rule has a number that is none. -/
theorem ofScript_comments_percent :
    Echo.platform.Unlined ∧ CommentText " 100% IF\tON %".toList
      ∧ ofScript Echo.platform (LogicalLine.script
          ([⟨"ECHO x".toList, ['\n']⟩, ⟨"ON Gift".toList, ['\r', '\n']⟩, ⟨[' '], ['\r', '\n']⟩]
            ++ LogicalLine.ofComment ['\t'] " 100% IF\tON %".toList
            :: [⟨"ECHO %y\n%".toList, ['\r']⟩, ⟨"ON Gift WITH amount > lots".toList, []⟩]))
        = .error ⟨.noNumber, some 2, some 7, some "lots"⟩
      ∧ tokenize (LogicalLine.script
          ([⟨"ECHO x".toList, ['\n']⟩, ⟨"ON Gift".toList, ['\r', '\n']⟩, ⟨[' '], ['\r', '\n']⟩]
            ++ LogicalLine.addComment " 100% IF\tON %".toList ⟨"ECHO %y\n%".toList, ['\r']⟩
            :: [⟨"ON Gift WITH amount > lots".toList, []⟩]))
        = tokenize "ECHO x\nON Gift\r\n \r\nECHO %y\n%\rON Gift WITH amount > lots" := by
  have hcomment : CommentText " 100% IF\tON %".toList := by
    have hhead : " 100% IF\tON %".toList.head? = some ' ' := by decide +kernel
    refine ⟨?_, List.any_eq_false.1 (by decide +kernel)⟩
    rw [hhead]
    rintro _ ⟨⟩
    rfl
  have hlines : logicalLines "ECHO x\nON Gift\r\n \r\nECHO %y\n%\rON Gift WITH amount > lots"
      = [⟨"ECHO x".toList, ['\n']⟩, ⟨"ON Gift".toList, ['\r', '\n']⟩, ⟨[' '], ['\r', '\n']⟩]
        ++ [⟨"ECHO %y\n%".toList, ['\r']⟩, ⟨"ON Gift WITH amount > lots".toList, []⟩] := by
    decide +kernel
  have hscript : ofScript Echo.platform
      "ECHO x\nON Gift\r\n \r\nECHO %y\n%\rON Gift WITH amount > lots"
      = .error ⟨.noNumber, some 2, some 6, some "lots"⟩ := by
    decide +kernel
  have hbreaks : lineBreaks (LogicalLine.script
      [⟨"ECHO x".toList, ['\n']⟩, ⟨"ON Gift".toList, ['\r', '\n']⟩, ⟨[' '], ['\r', '\n']⟩]) = 3 := by
    decide +kernel
  obtain ⟨hbetween, hend⟩ := ofScript_comments Echo.unplaced.unlined
    "ECHO x\nON Gift\r\n \r\nECHO %y\n%\rON Gift WITH amount > lots" hcomment
  refine ⟨Echo.unplaced.unlined, hcomment, ?_, hend _ _ _ hlines (by decide) (by decide)⟩
  have hindent : ∀ c ∈ ['\t'], isIndent c := List.forall_mem_singleton.2 rfl
  rw [hbetween _ _ _ hlines (by decide) hindent, hscript, hbreaks]
  rfl

end Ruleset

end EventRules

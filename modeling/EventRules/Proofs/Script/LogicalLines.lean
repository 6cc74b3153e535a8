import EventRules.Proofs.Script.Places

/-!
# `EventRules.Proofs.Script.LogicalLines`: a script line by line

The scanner knows no lines. Yet what it finds in a script is what it
finds in the lines, each read on its own. `logicalLines` cuts a script at
the line breaks outside spans, and `Reads` says which tokens the lines
make: the tokens of each line that is not blank, and one token for each
run of blank lines, with the line breaks of the run as its text.

`reads_logicalLines` says that these are the tokens of the script. The
induction goes from line to line, and carries along the run of blank
lines that the scanner has under way (`ScanState.AtLine`).
-/

set_option autoImplicit false

namespace EventRules

open Text

/-! ### Lines -/

/-- A line of a script. -/
structure LogicalLine where
  content : List Char
  /-- The line break that ends it, or nothing where the script ends. -/
  ending : List Char
  deriving DecidableEq, Repr

namespace LogicalLine

/-- The line as it stands in the script. -/
def chars (line : LogicalLine) : List Char :=
  line.content ++ line.ending

/-- Whether a line break ends the line and nothing but spaces and tabs
stands before it. -/
def isBlank (line : LogicalLine) : Bool :=
  !line.ending.isEmpty && line.content.all isIndent

/-- The tokens of the line alone, on no line in particular. -/
def tokens (line : LogicalLine) : List Token :=
  (tokenize (String.ofList line.content)).map Token.unplaced

/-- Puts a character in front of the first line. -/
def push (c : Char) : List LogicalLine → List LogicalLine
  | [] => [⟨[c], []⟩]
  | line :: rest => ⟨c :: line.content, line.ending⟩ :: rest

end LogicalLine

/-- The lines of characters of which the first one stands in a place.
They end at the line breaks outside spans; a carriage return and a line
feed after it are one line break. -/
def cutLines (place : Place) : List Char → List LogicalLine
  | [] => []
  | c :: cs =>
    if place.inSpan || !isBreak c then LogicalLine.push c (cutLines (place.next c) cs)
    else if c = '\r' then
      match cs with
      | '\n' :: rest => ⟨[], ['\r', '\n']⟩ :: cutLines .gap rest
      | cs => ⟨[], ['\r']⟩ :: cutLines .gap cs
    else ⟨[], [c]⟩ :: cutLines .gap cs

/-- The lines of a script. -/
def logicalLines (script : String) : List LogicalLine :=
  cutLines .gap script.toList

/-- The token of a run of blank lines. -/
def Token.ofBlankLines (run : List LogicalLine) : Token :=
  ⟨.emptyLine, String.ofList (run.flatMap (·.ending)), 0⟩

/-- The tokens that lines make. -/
inductive Reads : List LogicalLine → List Token → Prop where
  | nil : Reads [] []
  /-- A line that is not blank makes its own tokens. -/
  | line {line : LogicalLine} {lines : List LogicalLine} {tokens : List Token} :
      line.isBlank = false → Reads lines tokens →
      Reads (line :: lines) (line.tokens ++ tokens)
  /-- Blank lines make one token, as many as follow each other. -/
  | run {run lines : List LogicalLine} {tokens : List Token} :
      run ≠ [] → (∀ line ∈ run, line.isBlank) → (∀ line ∈ lines.head?, line.isBlank = false) →
      Reads lines tokens →
      Reads (run ++ lines) (.ofBlankLines run :: tokens)

/-! ### The first line -/

/-- No line break among the characters stands outside spans. -/
def Unbroken (place : Place) : List Char → Prop
  | [] => True
  | c :: cs => (isBreak c → place.inSpan) ∧ Unbroken (place.next c) cs

/-- The line break ends a line, and does not go on in what follows. -/
inductive Ending : List Char → List Char → Prop where
  | feed {rest : List Char} : Ending ['\n'] rest
  | return {rest : List Char} : rest.head? ≠ some '\n' → Ending ['\r'] rest
  | both {rest : List Char} : Ending ['\r', '\n'] rest

theorem Ending.isBreak_of_head {ending rest : List Char} (h : Ending ending rest) :
    ∀ c ∈ (ending ++ rest).head?, isBreak c := by
  cases h <;> rintro _ ⟨⟩ <;> rfl

/-- The line is the first one of the characters, and the rest follows
it. -/
structure FirstLine (place : Place) (cs : List Char) (line : LogicalLine) (rest : List Char) :
    Prop where
  chars_eq : cs = line.content ++ (line.ending ++ rest)
  unbroken : Unbroken place line.content
  ending : line.ending = [] ∧ rest = []
    ∨ (place.after line.content).inSpan = false ∧ Ending line.ending rest

theorem FirstLine.push {place : Place} {c : Char} {cs rest : List Char} {line : LogicalLine}
    (hc : isBreak c → place.inSpan) (h : FirstLine (place.next c) cs line rest) :
    FirstLine place (c :: cs) ⟨c :: line.content, line.ending⟩ rest :=
  ⟨congrArg (c :: ·) h.chars_eq, ⟨hc, h.unbroken⟩, h.ending⟩

/-- The lines are the first one and the lines of the rest. -/
theorem exists_firstLine (place : Place) {cs : List Char} (hne : cs ≠ []) :
    ∃ line rest, cutLines place cs = line :: cutLines .gap rest
      ∧ FirstLine place cs line rest ∧ rest.length < cs.length := by
  induction cs generalizing place with
  | nil => exact absurd rfl hne
  | cons c cs ih =>
    by_cases hstays : place.inSpan || !isBreak c
    · have hc : isBreak c → place.inSpan := by
        intro hbreak
        rw [hbreak, Bool.not_true, Bool.or_false] at hstays
        exact hstays
      have hcut : cutLines place (c :: cs) = LogicalLine.push c (cutLines (place.next c) cs) := by
        rw [cutLines.eq_def]
        exact if_pos hstays
      rw [hcut]
      cases cs with
      | nil =>
        exact ⟨⟨[c], []⟩, [], rfl, ⟨rfl, ⟨hc, trivial⟩, .inl ⟨rfl, rfl⟩⟩, Nat.zero_lt_one⟩
      | cons d cs =>
        obtain ⟨line, rest, hlines, hfirst, hlength⟩ := ih (place.next c) (List.cons_ne_nil d cs)
        rw [hlines]
        exact ⟨_, rest, rfl, hfirst.push hc, Nat.lt_succ_of_lt hlength⟩
    · -- The line ends here.
      have hspan : place.inSpan = false := by
        cases hspan : place.inSpan with
        | true => rw [hspan] at hstays; exact absurd rfl hstays
        | false => rfl
      have hbreak : isBreak c := by
        rw [hspan, Bool.false_or, Bool.not_eq_true'] at hstays
        exact Bool.not_eq_false _ ▸ hstays
      rw [cutLines.eq_def]
      simp only
      rw [if_neg hstays]
      by_cases hreturn : c = '\r'
      · rw [if_pos hreturn]
        subst hreturn
        split
        · next rest =>
          refine ⟨_, rest, rfl, ⟨rfl, trivial, .inr ⟨hspan, .both⟩⟩, ?_⟩
          simp only [List.length_cons]
          omega
        · next hfeed =>
          refine ⟨_, cs, rfl, ⟨rfl, trivial, .inr ⟨hspan, .return ?_⟩⟩, by simp⟩
          intro hhead
          obtain ⟨rest, rfl⟩ := List.head?_eq_some_iff.1 hhead
          exact hfeed rest rfl
      · rw [if_neg hreturn]
        have hfeed : c = '\n' := (eq_of_isBreak hbreak).resolve_right hreturn
        subst hfeed
        exact ⟨_, cs, rfl, ⟨rfl, trivial, .inr ⟨hspan, .feed⟩⟩, by simp⟩

/-- What holds of the lines of no characters, and of a first line before
lines of which it holds, holds of all lines. -/
theorem cutLines_induction {P : List Char → List LogicalLine → Prop} (hnil : P [] [])
    (hcons : ∀ cs line rest, FirstLine .gap cs line rest → P rest (cutLines .gap rest) →
      P cs (line :: cutLines .gap rest))
    (cs : List Char) : P cs (cutLines .gap cs) := by
  induction hn : cs.length using Nat.strongRecOn generalizing cs with
  | ind n ih =>
    cases cs with
    | nil => exact hnil
    | cons c cs =>
      obtain ⟨line, rest, hlines, hfirst, hlength⟩ :=
        exists_firstLine .gap (List.cons_ne_nil c cs)
      rw [hlines]
      exact hcons _ _ _ hfirst (ih _ (hn ▸ hlength) rest rfl)

/-- The lines hold the script, each character in its place. -/
theorem flatMap_chars_logicalLines (script : String) :
    (logicalLines script).flatMap LogicalLine.chars = script.toList := by
  refine cutLines_induction (P := fun cs lines => lines.flatMap LogicalLine.chars = cs) rfl ?_ _
  intro cs line rest hfirst ih
  rw [List.flatMap_cons, ih, hfirst.chars_eq, LogicalLine.chars, List.append_assoc]

/-! ### The scan of a line -/

/-- Whether the scanner is before the first text of a line. -/
def ScanMode.isLineStart : ScanMode → Bool
  | .lineStart _ => true
  | _ => false

namespace ScanState

/-- The scanner is on a line that has begun. -/
def OnLine (state : ScanState) : Prop :=
  ∀ afterReturn, state.mode ≠ .lineStart afterReturn

theorem onLine_of_mode {state : ScanState} (h : state.mode.isLineStart = false) :
    state.OnLine := by
  intro afterReturn hmode
  rw [hmode] at h
  cases h

/-- What the scanner completes on a line that goes on is no run of blank
lines. -/
structure StaysOnLine (result : Option Token × ScanState) : Prop where
  token : ∀ token ∈ result.1, token.isEmptyLine = false
  state : result.2.OnLine

theorem isEmptyLine_of_token?_ne {state : ScanState} {kind : TokenKind} (hkind : kind ≠ .emptyLine) :
    ∀ token ∈ state.token? kind, token.isEmptyLine = false := by
  intro token htoken
  obtain ⟨-, rfl⟩ := token?_eq_some_iff.1 htoken
  exact decide_eq_false hkind

namespace StaysOnLine

variable {state : ScanState}

theorem none {next : ScanState} (h : next.OnLine) : StaysOnLine (none, next) :=
  ⟨fun _ htoken => (Option.not_mem_none _ htoken).elim, h⟩

theorem word {c : Char} (hbreak : ¬ isBreak c) : StaysOnLine (state.word c) := by
  rw [ScanState.word, if_neg hbreak]
  split
  · exact ⟨isEmptyLine_of_token?_ne (by decide), onLine_of_mode rfl⟩
  split
  · exact none (onLine_of_mode rfl)
  split
  · exact none (onLine_of_mode rfl)
  · exact none (onLine_of_mode rfl)

theorem step (h : state.OnLine) {c : Char} (hc : isBreak c → state.place.inSpan) :
    StaysOnLine (state.step c) := by
  rw [ScanState.step]
  rw [← inGroup_eq_inSpan, inGroup] at hc
  cases hmode : state.mode with
  | lineStart afterReturn => exact absurd hmode (h afterReturn)
  | word =>
    rw [hmode] at hc
    exact word fun hbreak => Bool.false_ne_true (hc hbreak)
  | hash =>
    rw [hmode] at hc
    have hbreak : ¬ isBreak c := fun hbreak => Bool.false_ne_true (hc hbreak)
    simp only [ScanState.hash]
    rw [if_neg hbreak]
    split
    · exact none (onLine_of_mode rfl)
    · exact word hbreak
  | comment =>
    rw [hmode] at hc
    have hbreak : ¬ isBreak c := fun hbreak => Bool.false_ne_true (hc hbreak)
    simp only [ScanState.comment]
    rw [if_neg hbreak]
    exact none h
  | group escaping =>
    simp only [ScanState.group]
    cases Span.read escaping c with
    | add cs => exact none (onLine_of_mode rfl)
    | escape => exact none (onLine_of_mode rfl)
    | close => exact ⟨isEmptyLine_of_token?_ne (by decide), onLine_of_mode rfl⟩

end StaysOnLine

/-- So is what the end of the script completes there. -/
theorem isEmptyLine_of_finish {state : ScanState} (h : state.OnLine) :
    ∀ token ∈ state.finish, token.isEmptyLine = false := by
  rw [finish]
  cases hmode : state.mode with
  | lineStart afterReturn => exact absurd hmode (h afterReturn)
  | word => exact isEmptyLine_of_token?_ne (by decide)
  | hash => exact isEmptyLine_of_token?_ne (by decide)
  | comment => exact isEmptyLine_of_token?_ne (by decide)
  | group escaping => exact isEmptyLine_of_token?_ne (by decide)

/-- A line that has begun goes on up to a line break outside spans. -/
theorem onLine_after {state : ScanState} (h : state.OnLine) (htidy : state.Tidy) {cs : List Char}
    (hcs : Unbroken state.place cs) :
    (state.after cs).OnLine ∧ ∀ token ∈ state.scan cs, token.isEmptyLine = false := by
  induction cs generalizing state with
  | nil => exact ⟨h, fun token hmem => isEmptyLine_of_finish h token (Option.mem_toList.1 hmem)⟩
  | cons c cs ih =>
    obtain ⟨hplace, htidy'⟩ := htidy.step c
    obtain ⟨htoken, hnext⟩ := StaysOnLine.step h hcs.1
    obtain ⟨hafter, hrest⟩ := ih hnext htidy' (hplace ▸ hcs.2)
    refine ⟨hafter, ?_⟩
    rw [scan, List.forall_mem_append]
    exact ⟨fun token hmem => htoken token (Option.mem_toList.1 hmem), hrest⟩

/-- The scanner is before a line. A carriage return before it, if any, has
no line feed to wait for. -/
def BeforeLine (state : ScanState) (cs : List Char) : Prop :=
  ∃ afterReturn, state.mode = .lineStart afterReturn ∧ (afterReturn → cs.head? ≠ some '\n')

theorem beforeLine_of_mode {state : ScanState} (h : state.mode = .lineStart false)
    (cs : List Char) : state.BeforeLine cs :=
  ⟨false, h, fun hreturn => absurd hreturn Bool.false_ne_true⟩

theorem beforeLine_initial (cs : List Char) : initial.BeforeLine cs :=
  beforeLine_of_mode rfl cs

namespace BeforeLine

variable {state : ScanState} {cs : List Char}

theorem place_eq (h : state.BeforeLine cs) : state.place = .gap := by
  obtain ⟨afterReturn, hmode, -⟩ := h
  rw [place, hmode]

theorem tidy (h : state.BeforeLine cs) : state.Tidy := by
  obtain ⟨afterReturn, hmode, -⟩ := h
  refine tidy_of_mode ?_
  rw [hmode]
  rfl

theorem finish_eq (h : state.BeforeLine cs) : state.finish = state.token? .emptyLine := by
  obtain ⟨afterReturn, hmode, -⟩ := h
  rw [finish, hmode]

end BeforeLine

/-- The scanner is before a line and has a run of blank lines under way.
A carriage return before it, if any, has no line feed to wait for. -/
structure AtLine (state : ScanState) (run : List LogicalLine) (cs : List Char) : Prop where
  mode : ∃ afterReturn, state.mode = .lineStart afterReturn
    ∧ (afterReturn → cs.head? ≠ some '\n')
  blank : ∀ line ∈ run, line.isBlank
  text_eq : state.text = String.ofList (run.flatMap (·.ending))

/-- No carriage return stands before the line. -/
theorem atLine_of_mode {state : ScanState} {run : List LogicalLine} {cs : List Char}
    (hmode : state.mode = .lineStart false) (hblank : ∀ line ∈ run, line.isBlank)
    (htext : state.text = String.ofList (run.flatMap (·.ending))) : state.AtLine run cs :=
  ⟨beforeLine_of_mode hmode cs, hblank, htext⟩

/-- On a line, a line break is read alike in all places but spans. -/
theorem step_eq_word_of_break {state : ScanState} (h : state.OnLine)
    (hspan : state.place.inSpan = false) {c : Char} (hbreak : isBreak c) :
    state.step c = state.word c := by
  rw [ScanState.step]
  cases hmode : state.mode with
  | lineStart afterReturn => exact absurd hmode (h afterReturn)
  | word => rfl
  | hash =>
    simp only [ScanState.hash]
    rw [if_pos hbreak]
  | comment =>
    simp only [ScanState.comment]
    rw [if_pos hbreak]
  | group escaping =>
    rw [place, hmode] at hspan
    cases hspan

/-- So is the end of the script. -/
theorem finish_eq_word {state : ScanState} (h : state.OnLine)
    (hspan : state.place.inSpan = false) : state.finish = state.token? .word := by
  rw [finish]
  cases hmode : state.mode with
  | lineStart afterReturn => exact absurd hmode (h afterReturn)
  | group escaping =>
    rw [place, hmode] at hspan
    cases hspan
  | _ => rfl

/-- On a line, a line break and the end of the script complete the token
under way. -/
theorem scan_of_end {state : ScanState} (h : state.OnLine) (hspan : state.place.inSpan = false)
    {cs : List Char} (hcs : ∀ c ∈ cs.head?, isBreak c) :
    state.scan cs = state.finish.toList ++ state.fresh.scan cs := by
  cases cs with
  | nil => exact (List.append_nil _).symm
  | cons c cs =>
    have hbreak : isBreak c := hcs c rfl
    have hfresh : state.fresh.scan (c :: cs)
        = { state.cleared with mode := .lineStart (c = '\r'), line := state.line + 1 }.scan cs := by
      show (state.fresh.word c).1.toList ++ (state.fresh.word c).2.scan cs = _
      rw [ScanState.word, if_pos hbreak]
      rfl
    rw [hfresh, scan, step_eq_word_of_break h hspan hbreak, finish_eq_word h hspan, ScanState.word,
      if_pos hbreak]

/-- A line break outside spans completes what the end of the script
would, and the scanner is before the next line. -/
theorem scan_ending {state : ScanState} (h : state.OnLine) (hspan : state.place.inSpan = false)
    {ending rest : List Char} (hending : Ending ending rest) :
    ∃ next : ScanState, next.AtLine [] rest
      ∧ state.scan (ending ++ rest) = state.finish.toList ++ next.scan rest := by
  have hnone : ∀ line ∈ ([] : List LogicalLine), line.isBlank := fun _ hline =>
    absurd hline List.not_mem_nil
  rw [scan_of_end h hspan hending.isBreak_of_head]
  -- The first character does all the work; a line feed after a carriage
  -- return is only stepped over.
  cases hending with
  | feed => exact ⟨(state.fresh.step '\n').2, atLine_of_mode rfl hnone rfl, rfl⟩
  | «return» hfeed =>
    exact ⟨(state.fresh.step '\r').2, ⟨⟨true, rfl, fun _ => hfeed⟩, hnone, rfl⟩, rfl⟩
  | both =>
    exact ⟨((state.fresh.step '\r').2.step '\n').2, atLine_of_mode rfl hnone rfl, rfl⟩

/-- On a line without text, a line break is added to the text under way. -/
theorem step_lineStart_of_break {state : ScanState} {afterReturn : Bool}
    (hmode : state.mode = .lineStart afterReturn) {c : Char} (hbreak : isBreak c)
    (hfeed : ¬ (c = '\n' ∧ afterReturn)) :
    state.step c = (none, ((state.push c).count c).enter (.lineStart false)) := by
  rw [ScanState.step, hmode]
  simp only [ScanState.lineStart]
  rw [if_neg (not_isIndent_of_isBreak hbreak), if_neg hfeed, if_pos hbreak]

namespace AtLine

variable {state : ScanState} {run : List LogicalLine} {cs : List Char}

/-- A script begins with a line. -/
theorem initial (cs : List Char) : ScanState.initial.AtLine [] cs :=
  ⟨beforeLine_initial cs, fun _ hline => absurd hline List.not_mem_nil, rfl⟩

/-- The token of the run under way. -/
theorem token?_emptyLine (h : state.AtLine run cs) :
    (state.token? .emptyLine).toList.map Token.unplaced
      = if run = [] then [] else [.ofBlankLines run] := by
  rw [token?, h.text_eq]
  cases hrun : run with
  | nil => rfl
  | cons line rest =>
    -- A blank line has a line break.
    have hblank : line.isBlank := h.blank line (hrun ▸ List.mem_cons_self)
    have hempty : (String.ofList ((line :: rest).flatMap (·.ending))).isEmpty = false := by
      rw [String.isEmpty_eq_false_iff, Ne, ← String.toList_eq_nil_iff, String.toList_ofList,
        List.flatMap_cons, List.append_eq_nil_iff]
      intro hnil
      rw [LogicalLine.isBlank, hnil.1] at hblank
      cases hblank
    rw [hempty]
    rfl

theorem beforeLine (h : state.AtLine run cs) : state.BeforeLine cs :=
  h.mode

/-- The run under way becomes a token before the first text. -/
theorem finish_eq (h : state.AtLine run cs) :
    state.finish.toList.map Token.unplaced = if run = [] then [] else [.ofBlankLines run] := by
  rw [← h.token?_emptyLine, h.beforeLine.finish_eq]

theorem place_eq (h : state.AtLine run cs) : state.place = .gap :=
  h.beforeLine.place_eq

/-- Spaces and tabs are stepped over. -/
theorem scan_indent {indent : List Char} (hindent : ∀ c ∈ indent, isIndent c)
    (h : state.AtLine run (indent ++ cs)) :
    ∃ next : ScanState, next.AtLine run cs ∧ state.scan (indent ++ cs) = next.scan cs := by
  induction indent generalizing state with
  | nil => exact ⟨state, h, rfl⟩
  | cons c indent ih =>
    rw [List.forall_mem_cons] at hindent
    obtain ⟨afterReturn, hmode, -⟩ := h.mode
    have hstep : state.step c = (none, state.enter (.lineStart false)) := by
      rw [ScanState.step, hmode]
      exact if_pos hindent.1
    have hentered : (state.enter (.lineStart false)).AtLine run (indent ++ cs) :=
      atLine_of_mode rfl h.blank h.text_eq
    obtain ⟨next, hnext, hscan⟩ := ih hindent.2 hentered
    refine ⟨next, hnext, ?_⟩
    show (state.step c).1.toList ++ (state.step c).2.scan (indent ++ cs) = _
    rw [hstep]
    exact hscan

/-- A line break that does not belong to a carriage return before it is
text of the run. -/
theorem step_break {afterReturn : Bool} (hmode : state.mode = .lineStart afterReturn) {c : Char}
    (hbreak : isBreak c) (hfeed : ¬ (c = '\n' ∧ afterReturn)) :
    (state.step c).1 = none ∧ (state.step c).2.mode = .lineStart false
      ∧ (state.step c).2.text = state.text.push c := by
  rw [step_lineStart_of_break hmode hbreak hfeed]
  exact ⟨rfl, rfl, text_count _ _⟩

/-- A line break on a line without text joins the run. -/
theorem scan_break {line : LogicalLine} {rest : List Char} (hline : line.isBlank)
    (hending : Ending line.ending rest) (h : state.AtLine run (line.ending ++ rest)) :
    ∃ next : ScanState, next.AtLine (run ++ [line]) rest
      ∧ state.scan (line.ending ++ rest) = next.scan rest := by
  obtain ⟨afterReturn, hmode, hfeed⟩ := h.mode
  have hblank : ∀ other ∈ run ++ [line], other.isBlank := by
    rw [List.forall_mem_append, List.forall_mem_singleton]
    exact ⟨h.blank, hline⟩
  have htext : String.ofList ((run ++ [line]).flatMap (·.ending))
      = state.text ++ String.ofList line.ending := by
    rw [List.flatMap_append, List.flatMap_singleton, String.ofList_append, h.text_eq]
  generalize line.ending = ending at *
  cases hending with
  | feed =>
    have hreturn : ¬ afterReturn := fun hreturn => hfeed hreturn rfl
    obtain ⟨htoken, hnext, hpush⟩ := step_break hmode (c := '\n') rfl fun hboth => hreturn hboth.2
    refine ⟨(state.step '\n').2, atLine_of_mode hnext hblank ?_, ?_⟩
    · rw [hpush, htext]
      rfl
    · show (state.step '\n').1.toList ++ (state.step '\n').2.scan rest = _
      rw [htoken]
      rfl
  | «return» _ =>
    obtain ⟨htoken, hnext, hpush⟩ := step_break hmode (c := '\r') rfl nofun
    refine ⟨(state.step '\r').2, atLine_of_mode hnext hblank ?_, ?_⟩
    · rw [hpush, htext]
      rfl
    · show (state.step '\r').1.toList ++ (state.step '\r').2.scan rest = _
      rw [htoken]
      rfl
  | both =>
    obtain ⟨htoken, hnext, hpush⟩ := step_break hmode (c := '\r') rfl nofun
    obtain ⟨htoken', hnext', hpush'⟩ := step_break hnext (c := '\n') rfl nofun
    refine ⟨((state.step '\r').2.step '\n').2, atLine_of_mode hnext' hblank ?_, ?_⟩
    · rw [hpush', hpush, htext, ← String.toList_inj]
      simp
    · show (state.step '\r').1.toList ++ (((state.step '\r').2.step '\n').1.toList
        ++ ((state.step '\r').2.step '\n').2.scan rest) = _
      rw [htoken, htoken']
      rfl

/-- A blank line joins the run under way. -/
theorem scan_blank {line : LogicalLine} {rest : List Char} (hblank : line.isBlank)
    (hfirst : FirstLine .gap cs line rest) (h : state.AtLine run cs) :
    ∃ next : ScanState, next.AtLine (run ++ [line]) rest ∧ state.scan cs = next.scan rest := by
  obtain ⟨hended, hindent⟩ := Bool.and_eq_true_iff.1 hblank
  have hending : Ending line.ending rest := by
    rcases hfirst.ending with ⟨hnil, -⟩ | ⟨-, hending⟩
    · rw [hnil] at hended
      cases hended
    · exact hending
  rw [hfirst.chars_eq] at h ⊢
  obtain ⟨middle, hmiddle, hscan⟩ := scan_indent (List.all_eq_true.1 hindent) h
  rw [hscan]
  exact hmiddle.scan_break hblank hending

end AtLine

end ScanState

/-- Characters divided where the first text begins. -/
theorem eq_indent_append (cs : List Char) :
    (∀ c ∈ cs, isIndent c) ∨ ∃ indent c rest, cs = indent ++ c :: rest
      ∧ (∀ d ∈ indent, isIndent d) ∧ ¬ isIndent c := by
  induction cs with
  | nil => exact .inl nofun
  | cons c cs ih =>
    by_cases hc : isIndent c
    · rcases ih with hall | ⟨indent, d, rest, rfl, hindent, hd⟩
      · exact .inl (List.forall_mem_cons.2 ⟨hc, hall⟩)
      · exact .inr ⟨c :: indent, d, rest, rfl, List.forall_mem_cons.2 ⟨hc, hindent⟩, hd⟩
    · exact .inr ⟨[], c, cs, rfl, nofun, hc⟩

theorem Unbroken.of_append {place : Place} {cs ds : List Char} (h : Unbroken place (cs ++ ds)) :
    Unbroken (place.after cs) ds := by
  induction cs generalizing place with
  | nil => exact h
  | cons c cs ih => exact ih h.2

theorem Place.gap_after_indent {indent : List Char} (h : ∀ c ∈ indent, isIndent c) :
    Place.gap.after indent = .gap := by
  induction indent with
  | nil => rfl
  | cons c indent ih =>
    rw [List.forall_mem_cons] at h
    have hnext : Place.gap.next c = .gap := by
      have hhash : c ≠ '#' := by
        rintro rfl
        cases h.1
      rw [Place.next, if_neg hhash, Place.afterText, h.1, Bool.or_true, if_pos rfl]
    show (Place.gap.next c).after indent = .gap
    rw [hnext]
    exact ih h.2

/-- The tokens of a line are those of its text, which a fresh line may
begin with. -/
theorem LogicalLine.tokens_of_text {line : LogicalLine} {indent : List Char} {c : Char}
    {rest : List Char} (hline : line.content = indent ++ c :: rest)
    (hindent : ∀ d ∈ indent, isIndent d) (hc : ¬ isIndent c) (hbreak : ¬ isBreak c) :
    line.tokens = (ScanState.initial.fresh.scan (c :: rest)).map Token.unplaced := by
  obtain ⟨next, hnext, hscan⟩ := ScanState.AtLine.scan_indent hindent (.initial (indent ++ c :: rest))
  rw [tokens, tokenize, hline, String.toList_ofList, hscan,
    ScanState.scan_of_gap hnext.place_eq hc hbreak, List.map_append, hnext.finish_eq]
  exact ScanState.scan_fresh_unplaced next .initial (c :: rest)

theorem LogicalLine.tokens_of_indent {line : LogicalLine}
    (hindent : ∀ c ∈ line.content, isIndent c) : line.tokens = [] := by
  obtain ⟨next, hnext, hscan⟩ := ScanState.AtLine.scan_indent hindent (.initial (line.content ++ []))
  rw [List.append_nil] at hscan
  rw [tokens, tokenize, String.toList_ofList, hscan, ScanState.scan, hnext.finish_eq]
  rfl

/-- A line that is not blank ends the run under way, and makes the tokens
that it makes alone. -/
theorem ScanState.AtLine.scan_line {state : ScanState} {run : List LogicalLine}
    {cs rest : List Char} {line : LogicalLine} (hblank : line.isBlank = false)
    (hfirst : FirstLine .gap cs line rest) (h : state.AtLine run cs) :
    ∃ next : ScanState, next.AtLine [] rest
      ∧ (state.scan cs).map Token.unplaced
        = (if run = [] then [] else [.ofBlankLines run])
          ++ (line.tokens ++ (next.scan rest).map Token.unplaced) := by
  rw [hfirst.chars_eq] at h ⊢
  rcases eq_indent_append line.content with hall | ⟨indent, c, text, hcontent, hindent, hc⟩
  · -- Spaces and tabs alone are no blank line at the end of the script.
    have hend : line.ending = [] ∧ rest = [] := by
      rw [LogicalLine.isBlank, List.all_eq_true.2 hall, Bool.and_true, Bool.not_eq_false',
        List.isEmpty_iff] at hblank
      rcases hfirst.ending with hend | ⟨-, hending⟩
      · exact hend
      · rw [hblank] at hending
        cases hending
    obtain ⟨middle, hmiddle, hscan⟩ := ScanState.AtLine.scan_indent hall h
    refine ⟨.initial, .initial rest, ?_⟩
    rw [hend.1, hend.2] at hmiddle hscan
    have hdone : middle.scan ([] ++ []) = middle.finish.toList := rfl
    rw [hend.1, hend.2, hscan, hdone, hmiddle.finish_eq, line.tokens_of_indent hall]
    exact (List.append_nil _).symm
  · have hunbroken : Unbroken .gap (c :: text) := by
      have hcut := hfirst.unbroken
      rw [hcontent] at hcut
      have hrest := hcut.of_append
      rw [Place.gap_after_indent hindent] at hrest
      exact hrest
    have hbreak : ¬ isBreak c := fun hbreak => Bool.false_ne_true (hunbroken.1 hbreak)
    rw [hcontent, List.append_assoc] at h ⊢
    obtain ⟨middle, hmiddle, hscan⟩ := ScanState.AtLine.scan_indent hindent h
    have hfresh : middle.fresh.OnLine := ScanState.onLine_of_mode rfl
    have htidy : middle.fresh.Tidy := ScanState.tidy_of_mode rfl
    obtain ⟨honline, -⟩ := ScanState.onLine_after hfresh htidy hunbroken
    have htokens : (middle.fresh.scan (c :: text)).map Token.unplaced = line.tokens := by
      rw [line.tokens_of_text hcontent hindent hc hbreak]
      exact ScanState.scan_fresh_unplaced middle .initial (c :: text)
    -- What follows the line is read from the start of the next one.
    have hnext : ∃ next : ScanState, next.AtLine [] rest
        ∧ middle.fresh.scan (c :: text ++ (line.ending ++ rest))
          = middle.fresh.scan (c :: text) ++ next.scan rest := by
      rw [ScanState.scan_append, ScanState.scan_eq_completed _ (c :: text)]
      rcases hfirst.ending with ⟨hending, hrest⟩ | ⟨hspan, hending⟩
      · refine ⟨.initial, .initial rest, ?_⟩
        rw [hending, hrest]
        exact (List.append_nil _).symm
      · have hplace : (middle.fresh.after (c :: text)).place.inSpan = false := by
          rw [(htidy.after (c :: text)).1]
          have hsame : Place.gap.after (c :: text) = Place.gap.after line.content := by
            rw [hcontent, Place.after_append, Place.gap_after_indent hindent]
          exact hsame ▸ hspan
        obtain ⟨next, hat, hscan⟩ := ScanState.scan_ending honline hplace hending
        refine ⟨next, hat, ?_⟩
        rw [hscan, ← List.append_assoc]
    obtain ⟨next, hat, hboth⟩ := hnext
    refine ⟨next, hat, ?_⟩
    rw [hscan, List.cons_append, ScanState.scan_of_gap hmiddle.place_eq hc hbreak, List.map_append,
      hmiddle.finish_eq, ← List.cons_append, hboth, List.map_append, htokens]

/-! ### All lines -/

/-- A run may be put before a line that is not blank. -/
theorem Reads.append_run {run lines : List LogicalLine} {tokens : List Token}
    (hrun : ∀ line ∈ run, line.isBlank) (hhead : ∀ line ∈ lines.head?, line.isBlank = false)
    (h : Reads lines tokens) :
    Reads (run ++ lines) ((if run = [] then [] else [.ofBlankLines run]) ++ tokens) := by
  by_cases hnil : run = []
  · rw [if_pos hnil, hnil]
    exact h
  · rw [if_neg hnil]
    exact .run hnil hrun hhead h

/-- What the scanner finds from the start of a line on. -/
theorem ScanState.AtLine.reads {state : ScanState} {run : List LogicalLine} {cs : List Char}
    (h : state.AtLine run cs) :
    Reads (run ++ cutLines .gap cs) ((state.scan cs).map Token.unplaced) := by
  refine cutLines_induction (P := fun cs lines => ∀ (state : ScanState) run, state.AtLine run cs →
    Reads (run ++ lines) ((state.scan cs).map Token.unplaced)) ?_ ?_ cs state run h
  · intro state run h
    rw [ScanState.scan, h.finish_eq]
    have hrun := Reads.nil.append_run h.blank fun _ hline => by cases hline
    rw [List.append_nil (if run = [] then [] else [Token.ofBlankLines run])] at hrun
    exact hrun
  · intro cs line rest hfirst ih state run h
    cases hblank : line.isBlank with
    | true =>
      obtain ⟨next, hnext, hscan⟩ := h.scan_blank hblank hfirst
      have hreads := ih next _ hnext
      rw [List.append_assoc] at hreads
      rw [hscan]
      exact hreads
    | false =>
      obtain ⟨next, hnext, hscan⟩ := h.scan_line hblank hfirst
      rw [hscan]
      refine (Reads.line hblank (ih next [] hnext)).append_run h.blank ?_
      intro other hother
      cases hother
      exact hblank

/-- The tokens of a script are those that its lines make. -/
theorem reads_logicalLines (script : String) :
    Reads (logicalLines script) ((tokenize script).map Token.unplaced) :=
  (ScanState.AtLine.initial script.toList).reads

/-- No line of a script has a line break outside spans in its content. -/
theorem unbroken_of_mem {script : String} {line : LogicalLine} (h : line ∈ logicalLines script) :
    Unbroken .gap line.content := by
  refine cutLines_induction (P := fun _ lines => line ∈ lines → Unbroken .gap line.content)
    nofun ?_ script.toList h
  intro cs first rest hfirst ih hmem
  rcases List.mem_cons.1 hmem with rfl | hrest
  · exact hfirst.unbroken
  · exact ih hrest

/-- The tokens of a line are words and groups. -/
theorem LogicalLine.isEmptyLine_of_mem {script : String} {line : LogicalLine}
    (h : line ∈ logicalLines script) :
    ∀ token ∈ line.tokens, token.isEmptyLine = false := by
  have hunbroken := unbroken_of_mem h
  rcases eq_indent_append line.content with hall | ⟨indent, c, text, hcontent, hindent, hc⟩
  · rw [line.tokens_of_indent hall]
    exact nofun
  · rw [hcontent] at hunbroken
    have htext := hunbroken.of_append
    rw [Place.gap_after_indent hindent] at htext
    have hbreak : ¬ isBreak c := fun hbreak => Bool.false_ne_true (htext.1 hbreak)
    rw [line.tokens_of_text hcontent hindent hc hbreak]
    intro token hmem
    obtain ⟨found, hfound, rfl⟩ := List.mem_map.1 hmem
    have hfresh : ScanState.initial.fresh.OnLine := ScanState.onLine_of_mode rfl
    exact (ScanState.onLine_after hfresh (ScanState.tidy_of_mode rfl) htext).2 found hfound

end EventRules

import EventRules.Proofs.Script.LineStarts
import EventRules.Proofs.Script.Written

/-!
# `EventRules.Proofs.Script.Quoting`: what a span keeps from the scanner

Wherever a script is neither in a span nor in a comment, a text may be put
in as a span of its own. The scanner makes one group of it, together with
the part of a word that stands before it, and finds the rest of the script
as if there were some other text in the span: percent signs, backslashes
and `#` in the text mean nothing. Only its line feeds count, and move the
later tokens down (`tokenize_write`).

The span is read in two steps. `ScanState.due_after_held` and
`ScanState.line_after_held` say on which line the group stands and on which
line the span ends; its text is known from `ScanState.reaches_held`. Then
the scanner has nothing under way, and a scan does not depend on the line
that it starts from (`ScanState.scan_ahead`).
-/

set_option autoImplicit false

namespace EventRules

open Text

/-! ### The lines of a span -/

namespace ScanState

theorem isEmpty_add {state : ScanState} {cs : List Char}
    (h : state.text.isEmpty = false ∨ cs ≠ []) : (state.add cs).text.isEmpty = false := by
  rw [String.isEmpty_eq_false_iff, text_add, Ne, ← String.toList_eq_nil_iff, String.toList_append,
    String.toList_ofList, List.append_eq_nil_iff, String.toList_eq_nil_iff]
  rintro ⟨htext, hcs⟩
  rcases h with hne | hne
  · rw [htext] at hne
    cases hne
  · exact hne hcs

/-- The scanner moves down by the line feeds that a span holds. -/
theorem line_after_held {state : ScanState} {escaping escaping' : Bool}
    (hmode : state.mode = .group escaping) {cs text : List Char}
    (h : Span.held escaping cs = some (text, escaping')) :
    (state.after cs).line = state.line + text.count '\n' := by
  induction cs generalizing state escaping text with
  | nil =>
    cases h
    rfl
  | cons c cs ih =>
    rw [Span.held] at h
    show ((state.step c).2.after cs).line = _
    cases hread : Span.read escaping c with
    | add added =>
      rw [hread] at h
      obtain ⟨⟨rest, last⟩, hrest, hpair⟩ := Option.map_eq_some_iff.1 h
      cases hpair
      have hline : ((state.step c).2).line = state.line + added.count '\n' := by
        rw [step_add hmode hread, Span.count_of_read_add hread, ← line_add state added]
        exact line_count (state.add added) c
      have hnext : (state.step c).2.mode = .group false := by
        rw [step_add hmode hread]
        rfl
      rw [ih hnext hrest, hline, List.count_append, Nat.add_assoc]
    | escape =>
      rw [hread] at h
      rw [step_escape hmode hread]
      exact ih rfl h
    | close =>
      rw [hread] at h
      cases h

/-- Line feeds in a span do not move the line of its text, once there is
any. -/
theorem due_after_held {state : ScanState} {escaping escaping' : Bool}
    (hmode : state.mode = .group escaping) {cs text : List Char}
    (h : Span.held escaping cs = some (text, escaping'))
    (hne : state.text.isEmpty = false ∨ text ≠ []) : (state.after cs).due = state.due := by
  induction cs generalizing state escaping escaping' text with
  | nil => rfl
  | cons c cs ih =>
    rw [Span.held] at h
    show ((state.step c).2.after cs).due = _
    cases hread : Span.read escaping c with
    | add added =>
      rw [hread] at h
      obtain ⟨⟨rest, last⟩, hrest, hpair⟩ := Option.map_eq_some_iff.1 h
      have hadded : (state.add added).text.isEmpty = false :=
        isEmpty_add (.inr (Span.ne_nil_of_read_add hread))
      have hdue : (state.step c).2.due = state.due := by
        rw [step_add hmode hread, ← due_add state added]
        exact due_count_of_text hadded c
      have htext : (state.step c).2.text.isEmpty = false := by
        rw [step_add hmode hread, ← hadded]
        exact congrArg String.isEmpty (text_count (state.add added) c)
      have hnext : (state.step c).2.mode = .group false := by
        rw [step_add hmode hread]
        rfl
      rw [ih hnext hrest (.inl htext), hdue]
    | escape =>
      rw [hread] at h
      rw [step_escape hmode hread]
      exact ih rfl h hne
    | close =>
      rw [hread] at h
      cases h

/-! ### A text written into a span -/

/-- A text written into a span that has opened is one group with what stands
before it. What follows the span is read with nothing under way. -/
theorem scan_write {state : ScanState} (hmode : state.mode = .group false) {text : List Char}
    (hne : text ≠ []) (cs : List Char) :
    state.scan (text.flatMap Span.writeChar ++ '%' :: cs)
      = ⟨.group, state.text ++ String.ofList text, state.due⟩
        :: (state.fresh.scan cs).map (Token.shift (text.count '\n')) := by
  have hheld := Span.held_write text
  have hreaches := reaches_held hmode hheld
  rw [hreaches.scan_append]
  generalize hend : state.after (text.flatMap Span.writeChar) = last at hreaches
  have hdue : last.due = state.due := hend ▸ due_after_held hmode hheld (.inr hne)
  have hline : last.line = state.line + text.count '\n' := hend ▸ line_after_held hmode hheld
  have hlast : last.text = state.text ++ String.ofList text := hend ▸ hreaches.text_eq
  have htext : last.text.isEmpty = false := by
    rw [hlast, ← text_add]
    exact isEmpty_add (.inr hne)
  have htoken : last.token? .group = some ⟨.group, state.text ++ String.ofList text, state.due⟩ := by
    rw [token?_eq_some_iff, ← hlast, ← hdue, due, htext]
    exact ⟨rfl, rfl⟩
  have hmode' : last.mode = .group false := hend ▸ hreaches.mode_eq
  rw [scan, step_close hmode', htoken, scan_ahead (ahead_fresh hline)]
  rfl

/-- A percent sign opens a span everywhere but in a span or in a
comment. -/
theorem mode_step_percent {state : ScanState} (hgroup : state.inGroup = false)
    (hcomment : state.mode ≠ .comment) : (state.step '%').2.mode = .group false := by
  rw [ScanState.step]
  cases hmode : state.mode with
  | lineStart afterReturn => rfl
  | word => rfl
  | hash => rfl
  | comment => exact absurd hmode hcomment
  | group escaping =>
    rw [inGroup, hmode] at hgroup
    cases hgroup

/-- A script into which a text is put as a span of its own, read up to the
percent sign that opens the span and from there on. -/
theorem tokenize_opened_write {before : String}
    (hgroup : (initial.after before.toList).inGroup = false)
    (hcomment : (initial.after before.toList).mode ≠ .comment) {text : String} (hne : text ≠ "")
    (after : String) :
    tokenize (before ++ Span.write text ++ after)
      = initial.completed (before.toList ++ ['%'])
        ++ ⟨.group, (initial.after (before.toList ++ ['%'])).text ++ text,
            (initial.after (before.toList ++ ['%'])).due⟩
          :: ((initial.after (before.toList ++ ['%'])).fresh.scan after.toList).map
            (Token.shift (text.toList.count '\n')) := by
  have hscript : (before ++ Span.write text ++ after).toList
      = (before.toList ++ ['%']) ++ (text.toList.flatMap Span.writeChar ++ '%' :: after.toList) := by
    rw [Span.write, String.toList_append, String.toList_append, String.toList_ofList]
    simp
  have hopened : (initial.after (before.toList ++ ['%'])).mode = .group false := by
    have hstep : initial.after (before.toList ++ ['%'])
        = ((initial.after before.toList).step '%').2 := List.foldl_append
    rw [hstep]
    exact mode_step_percent hgroup hcomment
  have htext : text.toList ≠ [] := fun hnil => hne (String.toList_eq_nil_iff.1 hnil)
  rw [tokenize, hscript, scan_append, scan_write hopened htext, String.ofList_toList]

end ScanState

/-- Outside spans and comments, a text put in as a span of its own is one
group, together with the part of a word that stands before it. Any other
text in its place makes the same tokens, apart from the text of that group
and the lines of what follows, which move down by the line feeds in the
text. -/
theorem tokenize_write {before : String}
    (hgroup : (ScanState.initial.after before.toList).inGroup = false)
    (hcomment : (ScanState.initial.after before.toList).mode ≠ .comment) :
    ∃ earlier start line, ∀ after : String, ∃ later,
      tokenize (before ++ "%x%" ++ after) = earlier ++ ⟨.group, start ++ "x", line⟩ :: later
      ∧ ∀ text : String, text ≠ "" →
        tokenize (before ++ Text.Span.write text ++ after)
          = earlier ++ ⟨.group, start ++ text, line⟩
            :: later.map (Token.shift (text.toList.count '\n')) := by
  have hwrite : ∀ {text : String}, text ≠ "" → ∀ after : String, _ :=
    fun {_} hne after => ScanState.tokenize_opened_write hgroup hcomment hne after
  refine ⟨_, _, _, fun after => ⟨_, ?_, fun text hne => hwrite hne after⟩⟩
  have hx : tokenize (before ++ Span.write "x" ++ after) = _ := hwrite (by decide) after
  have hshift : Token.shift 0 = id := rfl
  rw [show Span.write "x" = "%x%" from rfl, show "x".toList.count '\n' = 0 from rfl, hshift,
    List.map_id] at hx
  exact hx

theorem tokenize_write_glued :
    (ScanState.initial.after "ECHO #".toList).inGroup = false
    ∧ (ScanState.initial.after "ECHO #".toList).mode ≠ .comment
    ∧ ∃ earlier start line, ∀ after : String, ∃ later,
      tokenize ("ECHO #" ++ "%x%" ++ after) = earlier ++ ⟨.group, start ++ "x", line⟩ :: later
      ∧ ∀ text : String, text ≠ "" →
        tokenize ("ECHO #" ++ Text.Span.write text ++ after)
          = earlier ++ ⟨.group, start ++ text, line⟩
            :: later.map (Token.shift (text.toList.count '\n')) :=
  ⟨by decide, by decide, tokenize_write (by decide) (by decide)⟩

/-- A `#` before the span, and a span right after it. -/
example :
    tokenize ("ECHO #" ++ Span.write "% \\\n#" ++ "%y%\nON")
      = [⟨.word, "ECHO", 1⟩, ⟨.group, "#% \\\n#", 1⟩, ⟨.group, "y", 2⟩, ⟨.word, "ON", 3⟩] := by
  decide +kernel

end EventRules

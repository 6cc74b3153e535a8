import EventRules.Proofs.Script.LineBreaks

/-!
# `EventRules.Proofs.Script.TokenStarts`: the lines that tokens start on

The text of a token begins where a script, read up to there, comes to have
one token more. `tokenize_line` says which line the token stands on: it is
found by counting the line breaks before that place, without those of blank
lines that end in a carriage return alone. The scanner misses these, so the
tokens below them stand further up than the script has it.

* `ScanState.exists_scan_eq`: a token that has text keeps it and its line,
  whatever follows.
* `ScanState.Opens.of_finish`: a character that leads to one token more
  begins its text, on the line of the scanner. It is the first character of
  the text, or the first one is a `#` that was held back, or it is a
  backslash before the first one.
* `ScanState.exists_opensAt` finds the character for each token.
-/

set_option autoImplicit false

namespace EventRules

open Text

namespace ScanState

/-! ### The token under way -/

theorem isEmpty_of_prefixOf {first second : String} (h : first.toList <+: second.toList)
    (hne : first.isEmpty = false) : second.isEmpty = false := by
  rw [String.isEmpty_eq_false_iff] at hne ⊢
  intro hnil
  rw [hnil] at h
  exact hne (String.toList_eq_nil_iff.1 (List.prefix_nil.1 h))

/-- A step completes the token under way, or goes on with it. -/
inductive GoesOn (state : ScanState) : Option Token × ScanState → Prop
  | completed {token : Token} {next : ScanState} (htext : token.text = state.text)
      (hline : token.line = state.due) : GoesOn state (some token, next)
  | longer {next : ScanState} (htext : state.text.toList <+: next.text.toList)
      (hdue : next.due = state.due) : GoesOn state (none, next)

namespace GoesOn

variable {state : ScanState}

theorem token? (hne : state.text.isEmpty = false) (kind : TokenKind) (next : ScanState) :
    GoesOn state (state.token? kind, next) := by
  cases htoken : state.token? kind with
  | none =>
    rw [token?_eq_none_iff, hne] at htoken
    cases htoken
  | some token =>
    obtain ⟨-, heq⟩ := token?_eq_some_iff.1 htoken
    exact .completed (by rw [heq]) (line_of_token? htoken)

theorem push (state : ScanState) (c : Char) (mode : ScanMode) :
    GoesOn state (none, (state.push c).enter mode) := by
  refine .longer ?_ (due_push state c)
  show _ <+: (state.text.push c).toList
  rw [String.toList_push]
  exact List.prefix_append _ _

theorem word (hne : state.text.isEmpty = false) (c : Char) : GoesOn state (state.word c) := by
  rw [ScanState.word]
  split
  · exact token? hne .word _
  split
  · exact token? hne .word _
  split
  · exact .longer (List.prefix_refl _) rfl
  split
  · next hhash =>
    rw [hne] at hhash
    exact absurd hhash.2 Bool.false_ne_true
  · exact push state c .word

theorem count (hne : state.text.isEmpty = false) (cs : List Char) (c : Char) (mode : ScanMode) :
    GoesOn state (none, ((state.add cs).count c).enter mode) := by
  have htext : state.text.toList <+: (state.add cs).text.toList := by
    rw [text_add, String.toList_append]
    exact List.prefix_append _ _
  refine .longer ?_ ?_
  · show _ <+: ((state.add cs).count c).text.toList
    rw [text_count]
    exact htext
  · exact (due_count_of_text (isEmpty_of_prefixOf htext hne) c).trans (due_add state cs)

theorem step (htidy : state.Tidy) (hne : state.text.isEmpty = false) (c : Char) :
    GoesOn state (state.step c) := by
  have hquiet : ¬ (state.mode = .hash ∨ state.mode = .comment) := by
    intro hmode
    rw [htidy hmode] at hne
    cases hne
  rw [ScanState.step]
  cases hmode : state.mode with
  | lineStart afterReturn =>
    simp only [ScanState.lineStart]
    split
    · exact .longer (List.prefix_refl _) rfl
    split
    · exact .longer (List.prefix_refl _) rfl
    split
    · exact count hne [c] c _
    · exact token? hne .emptyLine _
  | word => exact word hne c
  | hash => exact absurd (.inl hmode) hquiet
  | comment => exact absurd (.inr hmode) hquiet
  | group escaping =>
    simp only [ScanState.group]
    cases Span.read escaping c with
    | add cs => exact count hne cs c _
    | escape => exact .longer (List.prefix_refl _) rfl
    | close => exact token? hne .group _

end GoesOn

theorem finish_of_text {state : ScanState} (hne : state.text.isEmpty = false) :
    ∃ token, state.finish = some token ∧ state.text.toList <+: token.text.toList := by
  have hplain : ∀ kind, ∃ token, state.token? kind = some token
      ∧ state.text.toList <+: token.text.toList := by
    intro kind
    exact ⟨_, token?_eq_some_iff.2 ⟨hne, rfl⟩, List.prefix_refl _⟩
  rw [finish]
  cases hmode : state.mode with
  | group escaping =>
    have htext : state.text.toList <+: (state.add (Span.unfinished escaping)).text.toList := by
      rw [text_add, String.toList_append]
      exact List.prefix_append _ _
    exact ⟨_, token?_eq_some_iff.2 ⟨isEmpty_of_prefixOf htext hne, rfl⟩, htext⟩
  | _ => exact hplain _

/-- A token that has text is found next, with this text and more, and on
the line that it was due on. -/
theorem exists_scan_eq {state : ScanState} (htidy : state.Tidy)
    (hne : state.text.isEmpty = false) (cs : List Char) :
    ∃ token later, state.scan cs = token :: later ∧ token.line = state.due
      ∧ state.text.toList <+: token.text.toList := by
  induction cs generalizing state with
  | nil =>
    obtain ⟨token, hfinish, htext⟩ := finish_of_text hne
    refine ⟨token, [], ?_, line_of_finish hfinish, htext⟩
    rw [scan, hfinish]
    rfl
  | cons c cs ih =>
    have hnext := (htidy.step c).2
    have hgoes := GoesOn.step htidy hne c
    rw [scan]
    generalize state.step c = result at hnext hgoes
    cases hgoes with
    | @completed token next htext hline =>
      exact ⟨token, next.scan cs, rfl, hline, htext ▸ List.prefix_refl _⟩
    | @longer next htext hdue =>
      obtain ⟨token, later, hscan, hline, hprefix⟩ := ih hnext (isEmpty_of_prefixOf htext hne)
      exact ⟨token, later, hscan, hline.trans hdue, htext.trans hprefix⟩

/-! ### The first character of a token -/

/-- The text of a token begins with the character, on the line of the
scanner. -/
inductive Opens (state : ScanState) (c : Char) (next : ScanState) : Prop
  /-- The character is the first one. -/
  | first (htext : [c] <+: next.text.toList) (hdue : next.due = state.line)
  /-- The first one is the `#` before it. -/
  | hash (hmode : state.mode = .hash) (htext : ['#'] <+: next.text.toList)
      (hdue : next.due = state.line)
  /-- It is a backslash, and the next one decides whether it is text. -/
  | escape (hc : c = '\\') (hmode : next.mode = .group true) (htext : next.text.isEmpty)
      (hdue : next.due = state.line)

theorem token?_cleared (state : ScanState) (kind : TokenKind) : state.cleared.token? kind = none :=
  token?_eq_none_iff.2 rfl

theorem due_of_isEmpty {state : ScanState} (hempty : state.text.isEmpty) :
    state.due = state.line :=
  if_pos hempty

/-- A character that adds text where there is none. -/
theorem opens_push {state : ScanState} (hempty : state.text.isEmpty) (c : Char) :
    [c] <+: (state.push c).text.toList ∧ (state.push c).due = state.line := by
  refine ⟨?_, (due_push state c).trans (due_of_isEmpty hempty)⟩
  show [c] <+: (state.text.push c).toList
  rw [String.isEmpty_iff.1 hempty, String.toList_push]
  exact List.prefix_refl _

/-- A character that is counted as well. -/
theorem opens_count {state : ScanState} (hempty : state.text.isEmpty) (c : Char) :
    [c] <+: ((state.push c).count c).text.toList ∧ ((state.push c).count c).due = state.line := by
  obtain ⟨htext, hdue⟩ := opens_push hempty c
  rw [text_count]
  exact ⟨htext, (due_count_of_text (isEmpty_push _ c) c).trans hdue⟩

/-- A line break opens no token of its own after text. -/
theorem finish_word_break {c : Char} (hbreak : isBreak c) (state : ScanState) :
    (state.word c).2.finish = none := by
  rw [word, if_pos hbreak]
  exact token?_cleared state .emptyLine

theorem opens_word {state : ScanState} (hempty : state.text.isEmpty) {c : Char}
    (hindent : ¬ isIndent c) (hbreak : ¬ isBreak c) (hfinish : (state.word c).2.finish ≠ none) :
    [c] <+: (state.word c).2.text.toList ∧ (state.word c).2.due = state.line := by
  rw [word, if_neg hbreak, if_neg hindent] at hfinish ⊢
  by_cases hpercent : c = '%'
  · -- A span that has just been opened has no text.
    rw [if_pos hpercent] at hfinish
    exact absurd (token?_eq_none_iff.2 hempty) hfinish
  rw [if_neg hpercent] at hfinish ⊢
  by_cases hhash : c = '#' ∧ state.text.isEmpty
  · rw [if_pos hhash] at hfinish
    exact absurd (token?_eq_none_iff.2 hempty) hfinish
  · rw [if_neg hhash]
    exact opens_push hempty c

/-- A step completes no token that the end of the script would not. -/
theorem finish_ne_none_of_step {state : ScanState} {c : Char} (h : (state.step c).1 ≠ none) :
    state.finish ≠ none := by
  have hword : (state.word c).1 ≠ none → state.token? .word ≠ none := by
    intro hne hnone
    rw [word] at hne
    split at hne
    · exact hne hnone
    split at hne
    · exact hne hnone
    split at hne
    · exact hne rfl
    split at hne
    · exact hne rfl
    · exact hne rfl
  rw [step] at h
  rw [finish]
  cases hmode : state.mode with
  | lineStart afterReturn =>
    simp only [hmode, lineStart] at h
    split at h
    · exact absurd rfl h
    split at h
    · exact absurd rfl h
    split at h
    · exact absurd rfl h
    · exact h
  | word =>
    rw [hmode] at h
    exact hword h
  | hash =>
    simp only [hmode, hash] at h
    split at h
    · exact hword h
    split at h
    · exact absurd rfl h
    · next hbreak hblank =>
      have hindent : ¬ isIndent c := fun hindent => hblank (isBlank_of_isIndent hindent)
      exact absurd (word_eq_none hindent hbreak _) h
  | comment =>
    simp only [hmode, comment] at h
    split at h
    · exact hword h
    · exact absurd rfl h
  | group escaping =>
    simp only [hmode, group] at h
    cases hread : Span.read escaping c with
    | add cs =>
      rw [hread] at h
      exact absurd rfl h
    | escape =>
      rw [hread] at h
      exact absurd rfl h
    | close =>
      obtain ⟨rfl, -⟩ := Span.eq_of_read_close hread
      rw [hread] at h
      exact h

theorem length_step_le (state : ScanState) (c : Char) :
    (state.step c).1.toList.length ≤ state.finish.toList.length := by
  cases hstep : (state.step c).1 with
  | none => exact Nat.zero_le _
  | some token =>
    have hne : state.finish ≠ none :=
      finish_ne_none_of_step (hstep ▸ Option.some_ne_none token)
    cases hfinish : state.finish with
    | none => exact absurd hfinish hne
    | some _ => exact Nat.le_refl 1

namespace Opens

variable {state : ScanState} {c : Char}

/-- The first text of a blank line, or the first one of another line. -/
theorem lineStart {afterReturn : Bool}
    (hnone : (state.lineStart afterReturn c).1 = none → state.token? .emptyLine = none)
    (hfinish : (state.lineStart afterReturn c).2.finish ≠ none) :
    Opens state c (state.lineStart afterReturn c).2 := by
  rw [ScanState.lineStart] at hnone hfinish ⊢
  by_cases hindent : isIndent c
  · rw [if_pos hindent] at hnone hfinish
    exact absurd (hnone rfl) hfinish
  rw [if_neg hindent] at hnone hfinish ⊢
  by_cases hfeed : c = '\n' ∧ afterReturn
  · rw [if_pos hfeed] at hnone hfinish
    exact absurd (hnone rfl) hfinish
  rw [if_neg hfeed] at hnone hfinish ⊢
  by_cases hbreak : isBreak c
  · rw [if_pos hbreak] at hnone ⊢
    obtain ⟨htext, hdue⟩ := opens_count (token?_eq_none_iff.1 (hnone rfl)) c
    exact .first htext hdue
  · rw [if_neg hbreak] at hfinish ⊢
    obtain ⟨htext, hdue⟩ := @opens_word state.cleared rfl c hindent hbreak hfinish
    exact .first htext hdue

theorem word (hnone : (state.word c).1 = none → state.token? .word = none)
    (hfinish : (state.word c).2.finish ≠ none) : Opens state c (state.word c).2 := by
  by_cases hbreak : isBreak c
  · exact absurd (finish_word_break hbreak state) hfinish
  by_cases hindent : isIndent c
  · rw [ScanState.word, if_neg hbreak, if_pos hindent] at hfinish
    exact absurd (token?_cleared state .word) hfinish
  have hempty := token?_eq_none_iff.1 (hnone (word_eq_none hindent hbreak state))
  obtain ⟨htext, hdue⟩ := opens_word hempty hindent hbreak hfinish
  exact .first htext hdue

/-- The `#` that was held back has become text. -/
theorem hash_of_mode (hmode : state.mode = .hash) (hempty : state.text.isEmpty)
    (hfinish : (state.hash c).2.finish ≠ none) : Opens state c (state.hash c).2 := by
  rw [ScanState.hash] at hfinish ⊢
  by_cases hbreak : isBreak c
  · rw [if_pos hbreak] at hfinish
    exact absurd (finish_word_break hbreak state) hfinish
  rw [if_neg hbreak] at hfinish ⊢
  by_cases hblank : isBlank c
  · rw [if_pos hblank] at hfinish
    exact absurd (token?_eq_none_iff.2 hempty) hfinish
  rw [if_neg hblank]
  have hindent : ¬ isIndent c := fun hindent => hblank (isBlank_of_isIndent hindent)
  obtain ⟨htext, hdue⟩ := opens_push hempty '#'
  have hgoes : GoesOn (state.push '#') ((state.push '#').word c) := .word (isEmpty_push _ _) c
  have hword := word_eq_none hindent hbreak (state.push '#')
  generalize (state.push '#').word c = result at hgoes hword ⊢
  cases hgoes with
  | completed => cases hword
  | longer hprefix hsame => exact .hash hmode (htext.trans hprefix) (hsame.trans hdue)

theorem group {escaping : Bool}
    (hnone : (state.group escaping c).1 = none →
      (state.add (Span.unfinished escaping)).token? .group = none)
    (hfinish : (state.group escaping c).2.finish ≠ none) :
    Opens state c (state.group escaping c).2 := by
  rw [ScanState.group] at hnone hfinish ⊢
  cases hread : Span.read escaping c with
  | add cs =>
    rw [hread] at hnone
    have hadd := token?_eq_none_iff.1 (hnone rfl)
    cases escaping with
    | true =>
      -- The end of the script would complete the backslash under way.
      rw [text_add, String.isEmpty_iff] at hadd
      simp [Span.unfinished] at hadd
    | false =>
      cases Span.eq_of_read_add hread
      obtain ⟨htext, hdue⟩ := opens_count hadd c
      exact .first htext hdue
  | escape =>
    obtain ⟨rfl, rfl⟩ := Span.eq_of_read_escape hread
    rw [hread] at hnone
    have hempty : state.text.isEmpty := token?_eq_none_iff.1 (hnone rfl)
    exact .escape rfl rfl hempty (due_of_isEmpty hempty)
  | close =>
    rw [hread] at hfinish
    exact absurd (token?_cleared state .word) hfinish

/-- A character that leaves a token to be completed opens it, unless one was
under way before that is not completed yet. -/
theorem of_finish (htidy : state.Tidy) (hnone : (state.step c).1 = none → state.finish = none)
    (hfinish : (state.step c).2.finish ≠ none) : Opens state c (state.step c).2 := by
  rw [step] at hnone hfinish ⊢
  rw [finish] at hnone
  cases hmode : state.mode with
  | lineStart afterReturn =>
    rw [hmode] at hnone hfinish
    exact lineStart hnone hfinish
  | word =>
    rw [hmode] at hnone hfinish
    exact word hnone hfinish
  | hash =>
    rw [hmode] at hfinish
    exact hash_of_mode hmode (htidy (.inl hmode)) hfinish
  | comment =>
    have hempty : state.text.isEmpty := htidy (.inr hmode)
    simp only [hmode, comment] at hfinish
    split at hfinish
    · next hbreak => exact absurd (finish_word_break hbreak state) hfinish
    · refine absurd ?_ hfinish
      rw [finish, hmode]
      exact token?_eq_none_iff.2 hempty
  | group escaping =>
    rw [hmode] at hnone hfinish
    exact group hnone hfinish

end Opens

/-! ### Where a token begins -/

theorem word_hash {state : ScanState} {c : Char} (h : (state.word c).2.mode = .hash) :
    c = '#' ∧ state.text.isEmpty ∧ state.word c = (none, state.enter .hash) := by
  rw [word] at h ⊢
  split at h
  · cases h
  split at h
  · cases h
  split at h
  · cases h
  split at h
  · next hbreak hindent hpercent hhash =>
    rw [if_neg hbreak, if_neg hindent, if_neg hpercent, if_pos hhash]
    exact ⟨hhash.1, hhash.2, rfl⟩
  · cases h

/-- Only a `#` is held back, where the scanner completes what the end of
the script would. -/
theorem step_hash {state : ScanState} {c : Char} (h : (state.step c).2.mode = .hash) :
    c = '#' ∧ (state.step c).1 = state.finish ∧ (state.step c).2.line = state.line := by
  rw [step] at h ⊢
  rw [finish]
  cases hmode : state.mode with
  | lineStart afterReturn =>
    simp only [hmode, lineStart] at h ⊢
    split at h
    · cases h
    split at h
    · cases h
    split at h
    · cases h
    · next hindent hfeed hbreak =>
      obtain ⟨hc, -, hword⟩ := word_hash h
      rw [if_neg hindent, if_neg hfeed, if_neg hbreak, hword]
      exact ⟨hc, rfl, rfl⟩
  | word =>
    simp only [hmode] at h ⊢
    obtain ⟨hc, hempty, hword⟩ := word_hash h
    rw [hword]
    exact ⟨hc, (token?_eq_none_iff.2 hempty).symm, rfl⟩
  | hash =>
    simp only [hmode, hash] at h
    split at h
    · next hbreak =>
      obtain ⟨rfl, -, -⟩ := word_hash h
      cases hbreak
    split at h
    · cases h
    · -- There is text now, which a `#` is a part of.
      have hempty : (state.text.push '#').isEmpty := (word_hash h).2.1
      rw [isEmpty_push] at hempty
      cases hempty
  | comment =>
    simp only [hmode, comment] at h
    split at h
    · next hbreak =>
      obtain ⟨rfl, -, -⟩ := word_hash h
      cases hbreak
    · rw [hmode] at h
      cases h
  | group escaping =>
    simp only [hmode, group] at h
    cases hread : Span.read escaping c with
    | add cs =>
      rw [hread] at h
      cases h
    | escape =>
      rw [hread] at h
      cases h
    | close =>
      rw [hread] at h
      cases h

/-- The token under way is found next, and begins with the same
character. -/
theorem exists_scan_eq_head {state : ScanState} (htidy : state.Tidy) {c : Char}
    (h : [c] <+: state.text.toList) (cs : List Char) :
    ∃ token later, state.scan cs = token :: later ∧ token.line = state.due
      ∧ token.text.toList.head? = some c := by
  have hne : state.text.isEmpty = false := by
    rw [String.isEmpty_eq_false_iff]
    intro hnil
    rw [hnil] at h
    exact absurd (List.prefix_nil.1 h) (List.cons_ne_nil _ _)
  obtain ⟨token, later, hscan, hline, htext⟩ := exists_scan_eq htidy hne cs
  obtain ⟨rest, hrest⟩ := h.trans htext
  refine ⟨token, later, hscan, hline, ?_⟩
  rw [← hrest]
  rfl

/-- A backslash before any text of a token is the first character of the
text, or the one after it is. -/
theorem exists_scan_eq_escape {state : ScanState} (hmode : state.mode = .group true)
    (hempty : state.text.isEmpty) (cs : List Char) :
    ∃ token later, state.scan cs = token :: later ∧ token.line = state.due
      ∧ (token.text.toList.head? = some '\\'
        ∨ ∃ c ∈ cs.head?, token.text.toList.head? = some c) := by
  have hadd : ∀ added : List Char, (state.add added).text.toList = added := by
    intro added
    rw [text_add, String.isEmpty_iff.1 hempty, String.empty_append, String.toList_ofList]
  cases cs with
  | nil =>
    have hfinish : state.finish = (state.add ['\\']).token? .group := by
      rw [finish, hmode]
      rfl
    have hne : (state.add ['\\']).text.isEmpty = false := by
      rw [String.isEmpty_eq_false_iff, Ne, ← String.toList_eq_nil_iff, hadd]
      exact List.cons_ne_nil _ _
    have htoken := hfinish.trans (token?_eq_some_iff.2 ⟨hne, rfl⟩)
    refine ⟨_, [], ?_, line_of_finish htoken, .inl (congrArg List.head? (hadd ['\\']))⟩
    rw [scan, htoken]
    rfl
  | cons c cs =>
    have hstep : ∀ {d : Char} {added : List Char}, Span.read true c = .add (d :: added) →
        ∃ token later, state.scan (c :: cs) = token :: later ∧ token.line = state.due
          ∧ token.text.toList.head? = some d := by
      intro d added hread
      have hnext : state.step c
          = (none, ((state.add (d :: added)).count c).enter (.group false)) := by
        rw [step, hmode]
        simp only [group, hread]
      have htext : [d] <+: ((state.add (d :: added)).count c).text.toList := by
        rw [text_count, hadd]
        exact List.prefix_append [d] added
      have hdue : ((state.add (d :: added)).count c).due = state.due := by
        refine (due_count_of_text ?_ c).trans (due_add state _)
        rw [String.isEmpty_eq_false_iff, Ne, ← String.toList_eq_nil_iff, hadd]
        exact List.cons_ne_nil _ _
      obtain ⟨token, later, hscan, hline, hhead⟩ :=
        @exists_scan_eq_head (((state.add (d :: added)).count c).enter (.group false))
          (tidy_of_mode rfl) d htext cs
      refine ⟨token, later, ?_, hline.trans hdue, hhead⟩
      rw [scan, hnext]
      exact hscan
    by_cases hc : c = '%' ∨ c = '\\'
    · obtain ⟨token, later, hscan, hline, hhead⟩ := @hstep c [] (if_pos hc)
      exact ⟨token, later, hscan, hline, .inr ⟨c, rfl, hhead⟩⟩
    · obtain ⟨token, later, hscan, hline, hhead⟩ := @hstep '\\' [c] (if_neg hc)
      exact ⟨token, later, hscan, hline, .inl hhead⟩

/-- The token that a character opens is found next. -/
theorem Opens.exists_scan_eq {state next : ScanState} {c : Char} (h : Opens state c next)
    (htidy : next.Tidy) (cs : List Char) :
    ∃ token later, next.scan cs = token :: later ∧ token.line = state.line
      ∧ (token.text.toList.head? = some c
        ∨ state.mode = .hash ∧ token.text.toList.head? = some '#'
        ∨ c = '\\' ∧ ∃ d ∈ cs.head?, token.text.toList.head? = some d) := by
  cases h with
  | first htext hdue =>
    obtain ⟨token, later, hscan, hline, hhead⟩ := exists_scan_eq_head htidy htext cs
    exact ⟨token, later, hscan, hline.trans hdue, .inl hhead⟩
  | hash hmode htext hdue =>
    obtain ⟨token, later, hscan, hline, hhead⟩ := exists_scan_eq_head htidy htext cs
    exact ⟨token, later, hscan, hline.trans hdue, .inr (.inl ⟨hmode, hhead⟩)⟩
  | escape hc hmode htext hdue =>
    subst hc
    obtain ⟨token, later, hscan, hline, hhead⟩ := exists_scan_eq_escape hmode htext cs
    exact ⟨token, later, hscan, hline.trans hdue, hhead.imp_right fun hnext => .inr ⟨rfl, hnext⟩⟩

end ScanState

/-! ### The line of a token -/

/-- The text of a token begins with the first of these two parts of a
script, which the second one follows. -/
inductive OpensText (text : List Char) : List Char → List Char → Prop
  /-- The first character of the text. -/
  | first {c : Char} {rest : List Char} (h : text.head? = some c) : OpensText text [c] rest
  /-- A `#` is the first one. What comes after it makes it no comment. -/
  | hash {c : Char} {rest : List Char} (h : text.head? = some '#') :
      OpensText text ['#', c] rest
  /-- A backslash that takes away the meaning of the first one. -/
  | escape {c : Char} {rest : List Char} (h : text.head? = some c) :
      OpensText text ['\\'] (c :: rest)

/-- A number that grows along with a list exceeds a bound with one of its
elements. -/
theorem exists_prefix_lt (f : List Char → Nat) {n : Nat} {before cs : List Char}
    (hbefore : f before ≤ n) (h : n < f (before ++ cs)) :
    ∃ first c rest, before ++ cs = first ++ c :: rest ∧ f first ≤ n ∧ n < f (first ++ [c]) := by
  induction cs generalizing before with
  | nil =>
    rw [List.append_nil] at h
    omega
  | cons c cs ih =>
    by_cases hc : n < f (before ++ [c])
    · exact ⟨before, c, cs, rfl, hbefore, hc⟩
    · rw [List.append_cons] at h ⊢
      exact ih (Nat.not_lt.1 hc) h

namespace ScanState

/-- The place where a scan of the characters comes to have more tokens. -/
structure OpensAt (cs : List Char) (n : Nat) (before : List Char) (c : Char) (rest : List Char) :
    Prop where
  chars_eq : cs = before ++ c :: rest
  opens : Opens (initial.after before) c ((initial.after before).step c).2
  length_before : (initial.scan before).length = n
  length_completed :
    (initial.completed before).length + ((initial.after before).step c).1.toList.length = n
  length_after : (initial.scan (before ++ [c])).length = n + 1

theorem exists_opensAt {cs : List Char} {n : Nat} (h : n < (initial.scan cs).length) :
    ∃ before c rest, OpensAt cs n before c rest := by
  have hnil : (initial.scan []).length ≤ n := Nat.zero_le n
  obtain ⟨before, c, rest, hcs, hbefore, hafter⟩ :=
    exists_prefix_lt (fun cs => (initial.scan cs).length) hnil h
  have hend : (initial.scan before).length
      = (initial.completed before).length + (initial.after before).finish.toList.length := by
    rw [scan_eq_completed, List.length_append]
  have hnext : (initial.scan (before ++ [c])).length
      = (initial.completed before).length + (((initial.after before).step c).1.toList.length
        + ((initial.after before).step c).2.finish.toList.length) := by
    rw [scan_append, List.length_append, scan, scan, List.length_append]
  -- The step completes what the end of the script would, and leaves a token.
  have hstep := length_step_le (initial.after before) c
  have hleft := Option.length_toList_le (o := ((initial.after before).step c).2.finish)
  simp only [hend, hnext] at hbefore hafter
  have hsame : ((initial.after before).step c).1.toList.length
      = (initial.after before).finish.toList.length := by omega
  have hone : ((initial.after before).step c).2.finish.toList.length = 1 := by omega
  refine ⟨before, c, rest, hcs, ?_, by omega, by omega, by omega⟩
  refine .of_finish (tidy_initial.after before).2 ?_ ?_
  · intro hnone
    rw [hnone] at hsame
    exact Option.length_toList_eq_zero_iff.1 hsame.symm
  · intro hnone
    rw [hnone] at hone
    cases hone

/-- A `#` that has been held back stands before the place. -/
theorem OpensAt.before_hash {cs before rest : List Char} {n : Nat} {c : Char}
    (h : OpensAt cs n before c rest) (hmode : (initial.after before).mode = .hash) :
    ∃ first, before = first ++ ['#'] ∧ (initial.scan first).length = n
      ∧ (initial.after first).line = (initial.after before).line := by
  rcases List.eq_nil_or_concat before with rfl | ⟨first, sign, rfl⟩
  · cases hmode
  · rw [List.concat_eq_append] at *
    have hafter : initial.after (first ++ [sign]) = ((initial.after first).step sign).2 :=
      List.foldl_append
    have hempty : (initial.after (first ++ [sign])).finish = none := by
      rw [finish, hmode]
      exact token?_eq_none_iff.2 ((tidy_initial.after (first ++ [sign])).2 (.inl hmode))
    have hlength := h.length_before
    rw [hafter] at hmode hempty ⊢
    obtain ⟨rfl, hdone, hline⟩ := step_hash hmode
    refine ⟨first, rfl, ?_, hline.symm⟩
    rw [scan_append, scan, scan, hempty, hdone] at hlength
    rw [scan_eq_completed]
    simpa using hlength

end ScanState

/-- The line of a token is found by counting the line breaks before its
text, without those that the scanner misses. -/
theorem tokenize_line {script : String} {earlier later : List Token} {token : Token}
    (h : tokenize script = earlier ++ token :: later) :
    ∃ before opening rest, script.toList = before ++ (opening ++ rest)
      ∧ OpensText token.text.toList opening rest
      ∧ (tokenize (String.ofList before)).length = earlier.length
      ∧ (tokenize (String.ofList (before ++ opening))).length = earlier.length + 1
      ∧ token.line + missedBreaksOf before = 1 + breaksOf before := by
  have htokenize : ∀ cs, tokenize (String.ofList cs) = ScanState.initial.scan cs := by
    intro cs
    rw [tokenize, String.toList_ofList]
  have hlt : earlier.length < (ScanState.initial.scan script.toList).length := by
    show earlier.length < (tokenize script).length
    rw [h]
    simp
  obtain ⟨before, c, rest, hat⟩ := ScanState.exists_opensAt hlt
  obtain ⟨found, others, hscan, hline, htext⟩ :=
    hat.opens.exists_scan_eq ((ScanState.tidy_initial.after before).2.step c).2 rest
  -- As many tokens are completed there as come before this one.
  have htokens : (ScanState.initial.completed before
      ++ ((ScanState.initial.after before).step c).1.toList) ++ found :: others
        = earlier ++ token :: later := by
    rw [← h, tokenize, hat.chars_eq, ScanState.scan_append, ScanState.scan, hscan,
      List.append_assoc]
  have hlength := hat.length_completed
  rw [← List.length_append] at hlength
  obtain ⟨-, hfound⟩ := List.append_inj htokens hlength
  cases hfound
  have hcount := ScanState.line_after_cutLines (ScanState.beforeLine_initial before)
  rw [← hline] at hcount
  simp only [htokenize]
  rcases htext with hhead | ⟨hmode, hhead⟩ | ⟨rfl, d, hd, hhead⟩
  · exact ⟨before, [c], rest, hat.chars_eq, .first hhead, hat.length_before, hat.length_after,
      hcount⟩
  · obtain ⟨first, rfl, hfirst, hsame⟩ := hat.before_hash hmode
    have hcount := ScanState.line_after_cutLines (ScanState.beforeLine_initial first)
    rw [hsame, ← hline] at hcount
    refine ⟨first, ['#', c], rest, ?_, .hash hhead, hfirst, ?_, hcount⟩
    · rw [hat.chars_eq, List.append_assoc]
      rfl
    · have hafter := hat.length_after
      rw [List.append_assoc] at hafter
      exact hafter
  · obtain ⟨others, rfl⟩ := List.head?_eq_some_iff.1 hd
    exact ⟨before, ['\\'], d :: others, hat.chars_eq, .escape hhead, hat.length_before,
      hat.length_after, hcount⟩

theorem tokenize_line_return :
    tokenize "a\n\rb" = [⟨.word, "a", 1⟩, ⟨.emptyLine, "\r", 2⟩] ++ ⟨.word, "b", 2⟩ :: []
    ∧ ∃ before opening rest, "a\n\rb".toList = before ++ (opening ++ rest)
      ∧ OpensText ['b'] opening rest
      ∧ (tokenize (String.ofList before)).length = 2
      ∧ (tokenize (String.ofList (before ++ opening))).length = 3
      ∧ 2 + missedBreaksOf before = 1 + breaksOf before := by
  have htokens : tokenize "a\n\rb"
      = [⟨.word, "a", 1⟩, ⟨.emptyLine, "\r", 2⟩] ++ ⟨.word, "b", 2⟩ :: [] := by
    decide +kernel
  exact ⟨htokens, tokenize_line htokens⟩

/-- The last token stands on line 2, and two line breaks come before it. -/
theorem tokenize_line_missed :
    "a\n\rb".toList = ['a', '\n', '\r'] ++ ['b']
    ∧ ∃ token ∈ tokenize "a\n\rb", token.text = "b"
      ∧ token.line ≠ 1 + breaksOf ['a', '\n', '\r'] := by
  refine ⟨by decide +kernel, ⟨.word, "b", 2⟩, by decide +kernel, rfl, by decide +kernel⟩

end EventRules

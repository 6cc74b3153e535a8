import EventRules.Proofs.Firing.Echo
import EventRules.Proofs.Grammar.Moved
import EventRules.Proofs.Script.LineStarts
import EventRules.Proofs.Script.Prints

/-!
# `EventRules.Proofs.Script.Returns`: scripts with carriage returns

A script may end its lines with a carriage return and a line feed in place
of a line feed alone (`Text.crlf`). The scanner makes the same tokens of
it on the same lines. Only the texts differ, in that the line breaks of
blank lines and of spans are the longer ones (`tokenize_crlf`).

The scan of the one script is ahead of the other by one character for each
line feed. `ScanState.crlf` is where it stands then: `ScanState.step_crlf`
is a step that both scans make, and `ScanState.FeedsAlike` is about the two
steps that stand for a line feed. They must not begin after a carriage
return, since the line feed would belong to that one.

Blank lines only divide rules, so their texts do not matter, and spans
without line breaks have the same text. The rules are the same ones then
(`Ruleset.ofScript_crlf`).
-/

set_option autoImplicit false

namespace EventRules

open Text

/-! ### Texts -/

/-- The character as it stands in a text with the longer line breaks. -/
def Text.crlfChar (c : Char) : List Char :=
  if c = '\n' then ['\r', '\n'] else [c]

/-- The text with a carriage return before each line feed. -/
def Text.crlf (text : String) : String :=
  String.ofList (text.toList.flatMap crlfChar)

/-- The token with a carriage return before each line feed of its text. -/
def Token.crlf (token : Token) : Token :=
  { token with text := Text.crlf token.text }

/-- Whether a line feed would belong to a carriage return before it. -/
def ScanMode.isAfterReturn : ScanMode → Bool
  | .lineStart afterReturn => afterReturn
  | _ => false

/-- The state with a carriage return before each line feed of the text under
way. -/
def ScanState.crlf (state : ScanState) : ScanState :=
  { state with text := Text.crlf state.text }

namespace Text

theorem crlfChar_of_ne {c : Char} (h : c ≠ '\n') : crlfChar c = [c] :=
  if_neg h

theorem flatMap_crlfChar {cs : List Char} (h : '\n' ∉ cs) : cs.flatMap crlfChar = cs := by
  induction cs with
  | nil => rfl
  | cons c cs ih =>
    rw [List.mem_cons, not_or] at h
    rw [List.flatMap_cons, crlfChar_of_ne (Ne.symm h.1), ih h.2]
    rfl

/-- A text without line feeds stays as it is. -/
theorem crlf_eq_self {text : String} (h : '\n' ∉ text.toList) : crlf text = text := by
  rw [crlf, flatMap_crlfChar h, String.ofList_toList]

theorem crlf_push {c : Char} (h : c ≠ '\n') (text : String) :
    crlf (text.push c) = (crlf text).push c := by
  rw [← String.toList_inj]
  simp [crlf, crlfChar_of_ne h]

theorem crlf_push_feed (text : String) :
    crlf (text.push '\n') = ((crlf text).push '\r').push '\n' := by
  rw [← String.toList_inj]
  simp [crlf, crlfChar]

/-- There is as much or as little text as before. -/
@[simp] theorem isEmpty_crlf (text : String) : (crlf text).isEmpty = text.isEmpty := by
  have hnil : crlf text = "" ↔ text = "" := by
    rw [← String.toList_eq_nil_iff, ← String.toList_eq_nil_iff, crlf, String.toList_ofList,
      List.flatMap_eq_nil_iff, List.eq_nil_iff_forall_not_mem]
    refine forall₂_congr fun c _ => ?_
    rw [crlfChar]
    split <;> simp
  rw [Bool.eq_iff_iff, String.isEmpty_iff, String.isEmpty_iff, hnil]

end Text

/-! ### Steps -/

namespace ScanState

theorem push_crlf {c : Char} (h : c ≠ '\n') (state : ScanState) :
    (state.push c).crlf = state.crlf.push c := by
  simp only [push, crlf, crlf_push h, isEmpty_crlf]

/-- A line feed begins a token as the carriage return before it does. -/
theorem push_feed_crlf (state : ScanState) :
    (state.push '\n').crlf = (state.crlf.push '\r').push '\n' := by
  simp only [push, crlf, crlf_push_feed, isEmpty_crlf, isEmpty_push, Bool.false_eq_true, if_false]

theorem add_crlf {cs : List Char} (h : '\n' ∉ cs) (state : ScanState) :
    (state.add cs).crlf = state.crlf.add cs := by
  induction cs generalizing state with
  | nil => rfl
  | cons c cs ih =>
    rw [List.mem_cons, not_or] at h
    have hcons : ∀ state : ScanState, state.add (c :: cs) = (state.push c).add cs := fun _ => rfl
    rw [hcons, hcons, ih h.2, push_crlf (Ne.symm h.1)]

theorem token?_crlf (kind : TokenKind) (state : ScanState) :
    state.crlf.token? kind = (state.token? kind).map Token.crlf := by
  have hempty : state.crlf.text.isEmpty = state.text.isEmpty := isEmpty_crlf state.text
  rw [token?, token?, hempty]
  cases state.text.isEmpty <;> rfl

theorem count_crlf (c : Char) (state : ScanState) :
    (state.count c).crlf = state.crlf.count c := by
  rw [count, count]
  split <;> rfl

theorem enter_crlf (mode : ScanMode) (state : ScanState) :
    (state.enter mode).crlf = state.crlf.enter mode :=
  rfl

theorem count_return (state : ScanState) : state.count '\r' = state :=
  if_neg (by decide)

/-- What a step finds, with a carriage return before each line feed. -/
def found (result : Option Token × ScanState) : Option Token × ScanState :=
  (result.1.map Token.crlf, result.2.crlf)

theorem word_crlf {c : Char} (h : c ≠ '\n') (state : ScanState) :
    state.crlf.word c = found (state.word c) := by
  have hempty : state.crlf.text.isEmpty = state.text.isEmpty := isEmpty_crlf state.text
  rw [word, word, hempty, token?_crlf, ← push_crlf h]
  split
  · rfl
  split
  · rfl
  split
  · rfl
  split <;> rfl

theorem lineStart_crlf {c : Char} (h : c ≠ '\n') (afterReturn : Bool) (state : ScanState) :
    state.crlf.lineStart afterReturn c = found (state.lineStart afterReturn c) := by
  have hcleared : state.crlf.cleared.word c = found (state.cleared.word c) :=
    word_crlf h state.cleared
  rw [lineStart, lineStart, token?_crlf, ← push_crlf h, ← count_crlf, hcleared]
  split
  · rfl
  split
  · rfl
  split <;> rfl

theorem hash_crlf {c : Char} (h : c ≠ '\n') (state : ScanState) :
    state.crlf.hash c = found (state.hash c) := by
  rw [hash, hash, ← push_crlf (by decide), word_crlf h, word_crlf h]
  split
  · rfl
  split <;> rfl

theorem comment_crlf {c : Char} (h : c ≠ '\n') (state : ScanState) :
    state.crlf.comment c = found (state.comment c) := by
  rw [comment, comment, word_crlf h]
  split <;> rfl

theorem group_crlf {c : Char} (h : c ≠ '\n') (escaping : Bool) (state : ScanState) :
    state.crlf.group escaping c = found (state.group escaping c) := by
  rw [group, group]
  cases hread : Span.read escaping c with
  | add cs =>
    have hcs : '\n' ∉ cs := by
      rw [← List.count_eq_zero, Span.count_of_read_add hread, List.count_eq_zero,
        List.mem_singleton]
      exact Ne.symm h
    simp only
    rw [← add_crlf hcs, ← count_crlf]
    rfl
  | escape => rfl
  | close =>
    simp only
    rw [token?_crlf]
    rfl

/-- A step that both scans make. -/
theorem step_crlf {c : Char} (h : c ≠ '\n') (state : ScanState) :
    state.crlf.step c = found (state.step c) := by
  have hmode : state.crlf.mode = state.mode := rfl
  rw [step, step, hmode]
  cases state.mode with
  | lineStart afterReturn => exact lineStart_crlf h afterReturn state
  | word => exact word_crlf h state
  | hash => exact hash_crlf h state
  | comment => exact comment_crlf h state
  | group escaping => exact group_crlf h escaping state

/-- In a span a line break is text, and so is a backslash before it. -/
theorem step_group_of_break {state : ScanState} {escaping : Bool}
    (hmode : state.mode = .group escaping) {c : Char} (hbreak : isBreak c) :
    state.step c
      = (none, ((state.add (Span.unfinished escaping ++ [c])).count c).enter (.group false)) := by
  have hread : Span.read escaping c = .add (Span.unfinished escaping ++ [c]) := by
    rcases eq_of_isBreak hbreak with rfl | rfl <;> cases escaping <;> rfl
  exact step_add hmode hread

theorem not_mem_unfinished (escaping : Bool) : '\n' ∉ Span.unfinished escaping := by
  cases escaping <;> decide

theorem add_feed_crlf {cs : List Char} (h : '\n' ∉ cs) (state : ScanState) :
    (state.add (cs ++ ['\n'])).crlf = (state.crlf.add (cs ++ ['\r'])).push '\n' := by
  have hadd : ∀ (state : ScanState) (c : Char), state.add (cs ++ [c]) = (state.add cs).push c :=
    fun _ _ => List.foldl_append
  rw [hadd, hadd, push_feed_crlf, add_crlf h]

/-- The two steps that stand for a line feed come to what the line feed
does. -/
def FeedsAlike (state : ScanState) : Prop :=
  state.crlf.completed ['\r', '\n'] = ((state.step '\n').1.map Token.crlf).toList
    ∧ state.crlf.after ['\r', '\n'] = (state.step '\n').2.crlf

/-- The line feed completes nothing more than the carriage return did. -/
theorem feedsAlike_of_steps {state next last : ScanState} {token : Option Token}
    (hreturn : state.crlf.step '\r' = (token, next)) (hfeed : next.step '\n' = (none, last))
    (hfound : found (state.step '\n') = (token, last)) : state.FeedsAlike := by
  obtain ⟨htoken, hlast⟩ := Prod.mk.inj hfound
  constructor
  · rw [htoken, completed, completed, hreturn, hfeed]
    exact List.append_nil _
  · rw [hlast, after, List.foldl_cons, hreturn, List.foldl_cons, hfeed, List.foldl_nil]

/-- On a line without text the two characters join the run of blank
lines. -/
theorem feedsAlike_lineStart {state : ScanState} (hmode : state.mode = .lineStart false) :
    state.FeedsAlike := by
  have hmode' : state.crlf.mode = .lineStart false := hmode
  refine feedsAlike_of_steps (step_lineStart_of_break hmode' rfl (by decide))
    (step_lineStart_of_break rfl rfl (by decide)) ?_
  have hcrlf : (((state.push '\n').count '\n').enter (.lineStart false)).crlf
      = (((state.crlf.push '\r').push '\n').count '\n').enter (.lineStart false) := by
    rw [enter_crlf, count_crlf, push_feed_crlf]
  rw [step_lineStart_of_break hmode rfl (by decide), found, hcrlf, count_return]
  generalize state.crlf.push '\r' = pushed
  rfl

/-- In a span they are text. -/
theorem feedsAlike_group {state : ScanState} {escaping : Bool}
    (hmode : state.mode = .group escaping) : state.FeedsAlike := by
  have hmode' : state.crlf.mode = .group escaping := hmode
  refine feedsAlike_of_steps (step_group_of_break hmode' rfl) (step_group_of_break rfl rfl) ?_
  have hcrlf : (((state.add (Span.unfinished escaping ++ ['\n'])).count '\n').enter
        (.group false)).crlf
      = (((state.crlf.add (Span.unfinished escaping ++ ['\r'])).push '\n').count '\n').enter
        (.group false) := by
    rw [enter_crlf, count_crlf, add_feed_crlf (not_mem_unfinished escaping)]
  rw [step_group_of_break hmode rfl, found, hcrlf, count_return]
  rfl

/-- After text the carriage return ends the line, and the line feed belongs
to it. -/
theorem feedsAlike_of_onLine {state : ScanState} (hon : state.OnLine)
    (hspan : state.place.inSpan = false) : state.FeedsAlike := by
  have hon' : state.crlf.OnLine := hon
  have hspan' : state.crlf.place.inSpan = false := by
    rw [← inGroup_eq_inSpan] at hspan ⊢
    exact hspan
  refine feedsAlike_of_steps (step_eq_word_of_break hon' hspan' rfl) rfl ?_
  rw [step_eq_word_of_break hon hspan rfl]
  exact congrArg (·, _) (token?_crlf .word state).symm

theorem feedsAlike {state : ScanState} (hmode : state.mode.isAfterReturn = false) :
    state.FeedsAlike := by
  cases hcase : state.mode with
  | lineStart afterReturn =>
    rw [hcase] at hmode
    have hfalse : afterReturn = false := hmode
    exact feedsAlike_lineStart (hfalse ▸ hcase)
  | group escaping => exact feedsAlike_group hcase
  | _ =>
    have hon : state.OnLine := onLine_of_mode (by rw [hcase]; rfl)
    exact feedsAlike_of_onLine hon (by rw [← inGroup_eq_inSpan, inGroup, hcase])

/-- Only a carriage return leads there. -/
theorem isAfterReturn_step {c : Char} (h : c ≠ '\r') (state : ScanState) :
    (state.step c).2.mode.isAfterReturn = false := by
  have hword : ∀ other : ScanState, (other.word c).2.mode.isAfterReturn = false := by
    intro other
    rw [word]
    split
    · exact decide_eq_false h
    split
    · rfl
    split
    · rfl
    split <;> rfl
  rw [step]
  cases hmode : state.mode with
  | lineStart afterReturn =>
    simp only [lineStart]
    split
    · rfl
    split
    · rfl
    split
    · rfl
    · exact hword state.cleared
  | word => exact hword state
  | hash =>
    simp only [hash]
    split
    · exact hword state
    split
    · rfl
    · exact hword (state.push '#')
  | comment =>
    simp only [comment]
    split
    · exact hword state
    · rw [hmode]
      rfl
  | group escaping =>
    simp only [group]
    cases Span.read escaping c <;> rfl

theorem finish_crlf (state : ScanState) : state.crlf.finish = state.finish.map Token.crlf := by
  have hmode : state.crlf.mode = state.mode := rfl
  rw [finish, finish, hmode]
  cases state.mode with
  | group escaping =>
    simp only
    rw [← add_crlf (not_mem_unfinished escaping), token?_crlf]
  | _ => exact token?_crlf _ state

/-- The scan of a script with the longer line breaks. -/
theorem scan_crlf {state : ScanState} (hmode : state.mode.isAfterReturn = false) {cs : List Char}
    (hreturn : '\r' ∉ cs) :
    state.crlf.scan (cs.flatMap crlfChar) = (state.scan cs).map Token.crlf := by
  induction cs generalizing state with
  | nil =>
    rw [List.flatMap_nil, scan, scan, finish_crlf]
    cases state.finish <;> rfl
  | cons c cs ih =>
    rw [List.mem_cons, not_or] at hreturn
    have hnext := ih (isAfterReturn_step (Ne.symm hreturn.1) state) hreturn.2
    rw [List.flatMap_cons, scan, List.map_append, ← hnext]
    by_cases hfeed : c = '\n'
    · subst hfeed
      obtain ⟨hcompleted, hafter⟩ := feedsAlike hmode
      have hchars : crlfChar '\n' = ['\r', '\n'] := rfl
      rw [hchars, scan_append, hcompleted, hafter]
      cases (state.step '\n').1 <;> rfl
    · rw [crlfChar_of_ne hfeed, List.singleton_append, scan, step_crlf hfeed, found]
      cases (state.step c).1 <;> rfl

end ScanState

/-- A script with the longer line breaks has the same tokens, with the
longer line breaks in their texts. -/
theorem tokenize_crlf {script : String} (hreturn : '\r' ∉ script.toList) :
    tokenize (Text.crlf script) = (tokenize script).map Token.crlf := by
  have hmode : ScanState.initial.mode.isAfterReturn = false := rfl
  rw [tokenize, Text.crlf, String.toList_ofList]
  exact ScanState.scan_crlf hmode hreturn

/-! ### Rules -/

theorem Token.crlf_eq_self {token : Token} (h : '\n' ∉ token.text.toList) : token.crlf = token := by
  rw [Token.crlf, Text.crlf_eq_self h]

/-- Line breaks of blank lines are in no block. -/
theorem Block.split_crlf {tokens : List Token}
    (h : ∀ token ∈ tokens, token.isEmptyLine = false → '\n' ∉ token.text.toList) :
    split (tokens.map Token.crlf) = split tokens := by
  rw [split_map Token.crlf fun _ => rfl]
  refine (List.map_congr_left fun block hblock => ?_).trans (List.map_id _)
  obtain ⟨-, hsolid, hsub⟩ := mem_split hblock
  refine (List.map_congr_left fun token htoken => ?_).trans (List.map_id _)
  exact Token.crlf_eq_self (h token (hsub.mem htoken) (hsolid token htoken))

theorem not_feed_of_mem_tokenize {script : String}
    (hgroup : ∀ token ∈ tokenize script, token.kind = .group → '\n' ∉ token.text.toList)
    {token : Token} (hmem : token ∈ tokenize script) (hempty : token.isEmptyLine = false) :
    '\n' ∉ token.text.toList := by
  have hlegible := tokenize_legible script token hmem
  rw [Token.Legible] at hlegible
  cases hkind : token.kind with
  | word =>
    rw [hkind] at hlegible
    intro hfeed
    cases hlegible.plain _ hfeed
  | group => exact hgroup token hmem hkind
  | emptyLine =>
    rw [Token.isEmptyLine, hkind] at hempty
    cases hempty

namespace Ruleset

variable {φ α ε : Type} [Host φ α ε]

/-- The longer line breaks make the same tokens on the same lines. If no
span has a line break in it, they make the same rules or the same error. -/
theorem ofScript_crlf (platform : Platform φ ε) {script : String}
    (hreturn : '\r' ∉ script.toList) :
    tokenize (Text.crlf script) = (tokenize script).map Token.crlf
      ∧ ((∀ token ∈ tokenize script, token.kind = .group → '\n' ∉ token.text.toList) →
        ofScript (α := α) platform (Text.crlf script) = ofScript platform script) := by
  have htokens := tokenize_crlf hreturn
  refine ⟨htokens, fun hgroup => ?_⟩
  have hsplit : Block.split (tokenize (Text.crlf script)) = Block.split (tokenize script) := by
    rw [htokens]
    exact Block.split_crlf fun token hmem => not_feed_of_mem_tokenize hgroup hmem
  rw [ofScript, ofScript, ofTokens, ofTokens, hsplit]

/-- A comment at the end of a line, a span without line breaks and a run of
blank lines. -/
theorem ofScript_crlf_comment :
    '\r' ∉ "ECHO %a b% # c\nON Gift\n \n\nECHO #x\nON Gift".toList
      ∧ (∀ token ∈ tokenize "ECHO %a b% # c\nON Gift\n \n\nECHO #x\nON Gift",
        token.kind = .group → '\n' ∉ token.text.toList)
      ∧ ofScript Echo.platform (Text.crlf "ECHO %a b% # c\nON Gift\n \n\nECHO #x\nON Gift")
        = .ok ⟨[⟨"Gift", .leaf "ECHO" [⟨.group, "a b", 1⟩] ["a b"], [], some 2⟩,
            ⟨"Gift", .leaf "ECHO" [⟨.word, "#x", 5⟩] ["#x"], [], some 6⟩]⟩ := by
  have hreturn : '\r' ∉ "ECHO %a b% # c\nON Gift\n \n\nECHO #x\nON Gift".toList := by
    decide +kernel
  have hgroup : ∀ token ∈ tokenize "ECHO %a b% # c\nON Gift\n \n\nECHO #x\nON Gift",
      token.kind = .group → '\n' ∉ token.text.toList := by
    decide +kernel
  refine ⟨hreturn, hgroup, ?_⟩
  rw [(ofScript_crlf Echo.platform hreturn).2 hgroup]
  decide +kernel

end Ruleset

end EventRules

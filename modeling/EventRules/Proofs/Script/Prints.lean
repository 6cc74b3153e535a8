import EventRules.Proofs.Script.Quoting

/-!
# `EventRules.Proofs.Script.Prints`: texts that are read as tokens

`Prints text tokens` says that a text may stand between others, with a
space before and after it, and is read as the tokens wherever it stands,
lines and blank lines aside. Texts are put together by `Prints.append`.

* `tokenize_legible`: the words and groups of a script are `Legible`, so
  none of them is lost or cut when it is written again.
* `Text.IsWord.prints` and `prints_write`: a word is read from its text,
  and a group from a span with its text.

A text that leaves a span or a comment open prints nothing, since it takes
in what follows (`Closed`).
-/

set_option autoImplicit false

namespace EventRules

open Text

/-! ### Tokens of scripts -/

/-- The token is a word as the scanner reads one, or a group with
text. -/
def Token.Legible (token : Token) : Prop :=
  match token.kind with
  | .word => IsWord token.text.toList
  | .group => token.text ≠ ""
  | .emptyLine => True

namespace ScanState

/-- What is under way on a line is nothing or a word, and nothing before a
comment or in one. -/
structure Worded (state : ScanState) : Prop where
  tidy : state.Tidy
  word : state.mode = .word → state.text = "" ∨ IsWord state.text.toList

/-- What a step may come to. -/
structure StaysWorded (result : Option Token × ScanState) : Prop where
  token : ∀ token ∈ result.1, token.Legible
  state : result.2.mode = .word → result.2.text = "" ∨ IsWord result.2.text.toList

theorem legible_of_token? {state : ScanState} {kind : TokenKind}
    (hword : kind = .word → state.text = "" ∨ IsWord state.text.toList) :
    ∀ token ∈ state.token? kind, token.Legible := by
  intro token htoken
  obtain ⟨htext, rfl⟩ := token?_eq_some_iff.1 htoken
  rw [String.isEmpty_eq_false_iff] at htext
  cases kind with
  | word => exact (hword rfl).resolve_left htext
  | group => exact htext
  | emptyLine => trivial

namespace StaysWorded

variable {state : ScanState}

theorem none {next : ScanState} (h : next.mode = .word → next.text = "" ∨ IsWord next.text.toList) :
    StaysWorded (none, next) :=
  ⟨fun _ htoken => (Option.not_mem_none _ htoken).elim, h⟩

theorem word (h : state.text = "" ∨ IsWord state.text.toList) (c : Char) :
    StaysWorded (state.word c) := by
  rw [ScanState.word]
  by_cases hbreak : isBreak c
  · rw [if_pos hbreak]
    exact ⟨legible_of_token? fun _ => h, fun hmode => by cases hmode⟩
  rw [if_neg hbreak]
  by_cases hindent : isIndent c
  · rw [if_pos hindent]
    exact ⟨legible_of_token? fun _ => h, fun _ => .inl rfl⟩
  rw [if_neg hindent]
  by_cases hpercent : c = '%'
  · rw [if_pos hpercent]
    exact none fun hmode => by cases hmode
  rw [if_neg hpercent]
  by_cases hhash : c = '#' ∧ state.text.isEmpty
  · rw [if_pos hhash]
    exact none fun hmode => by cases hmode
  rw [if_neg hhash]
  refine none fun _ => .inr ?_
  have hplain : isPlain c := isPlain_iff.2 ⟨hindent, hbreak, hpercent⟩
  show IsWord (state.text.push c).toList
  rw [String.toList_push]
  rcases h with hempty | hword
  · rw [hempty] at hhash ⊢
    exact .singleton hplain fun hc => hhash ⟨hc, rfl⟩
  · exact hword.concat hplain

theorem hash (hempty : state.text = "") (c : Char) : StaysWorded (state.hash c) := by
  rw [ScanState.hash]
  by_cases hbreak : isBreak c
  · rw [if_pos hbreak]
    exact word (.inl hempty) c
  rw [if_neg hbreak]
  by_cases hblank : isBlank c
  · rw [if_pos hblank]
    exact none fun hmode => by cases hmode
  rw [if_neg hblank]
  -- The `#` is no word yet, so the character after it has to be looked at.
  have hindent : ¬ isIndent c := fun hindent => hblank (isBlank_of_isIndent hindent)
  rw [ScanState.word, if_neg hbreak, if_neg hindent]
  by_cases hpercent : c = '%'
  · rw [if_pos hpercent]
    exact none fun hmode => by cases hmode
  have hbegun : ¬ (c = '#' ∧ (state.push '#').text.isEmpty) := by
    rintro ⟨-, hnot⟩
    rw [show (state.push '#').text = state.text.push '#' from rfl, isEmpty_push] at hnot
    cases hnot
  rw [if_neg hpercent, if_neg hbegun]
  refine none fun _ => .inr ?_
  show IsWord ((state.text.push '#').push c).toList
  rw [hempty, String.toList_push, String.toList_push]
  exact .hash_cons (isPlain_iff.2 ⟨hindent, hbreak, hpercent⟩) hblank

theorem lineStart (afterReturn : Bool) (c : Char) :
    StaysWorded (state.lineStart afterReturn c) := by
  rw [ScanState.lineStart]
  split
  · exact none fun hmode => by cases hmode
  split
  · exact none fun hmode => by cases hmode
  split
  · exact none fun hmode => by cases hmode
  · exact ⟨legible_of_token? fun hkind => (by cases hkind), (word (.inl rfl) c).state⟩

end StaysWorded

namespace Worded

variable {state : ScanState}

theorem step (h : state.Worded) (c : Char) :
    (∀ token ∈ (state.step c).1, token.Legible) ∧ (state.step c).2.Worded := by
  have hstays : StaysWorded (state.step c) := by
    rw [ScanState.step]
    cases hmode : state.mode with
    | lineStart afterReturn => exact .lineStart afterReturn c
    | word => exact .word (h.word hmode) c
    | hash => exact .hash (String.isEmpty_iff.1 (h.tidy (.inl hmode))) c
    | comment =>
      have hempty : state.text = "" := String.isEmpty_iff.1 (h.tidy (.inr hmode))
      simp only [ScanState.comment]
      split
      · exact .word (.inl hempty) c
      · exact .none fun _ => .inl hempty
    | group escaping =>
      simp only [ScanState.group]
      cases Span.read escaping c with
      | add cs => exact .none fun hmode => by cases hmode
      | escape => exact .none fun hmode => by cases hmode
      | close => exact ⟨legible_of_token? fun hkind => (by cases hkind), fun _ => .inl rfl⟩
  exact ⟨hstays.token, (h.tidy.step c).2, hstays.state⟩

theorem finish (h : state.Worded) : ∀ token ∈ state.finish, token.Legible := by
  rw [ScanState.finish]
  cases hmode : state.mode with
  | lineStart afterReturn => exact legible_of_token? fun hkind => by cases hkind
  | word => exact legible_of_token? fun _ => h.word hmode
  | hash => exact legible_of_token? fun _ => .inl (String.isEmpty_iff.1 (h.tidy (.inl hmode)))
  | comment => exact legible_of_token? fun _ => .inl (String.isEmpty_iff.1 (h.tidy (.inr hmode)))
  | group escaping => exact legible_of_token? fun hkind => by cases hkind

theorem scan (h : state.Worded) (cs : List Char) : ∀ token ∈ state.scan cs, token.Legible := by
  induction cs generalizing state with
  | nil =>
    intro token htoken
    exact h.finish token (Option.mem_toList.1 htoken)
  | cons c cs ih =>
    obtain ⟨htoken, hnext⟩ := h.step c
    rw [ScanState.scan, List.forall_mem_append]
    exact ⟨fun token hmem => htoken token (Option.mem_toList.1 hmem), ih hnext⟩

end Worded

end ScanState

/-- The tokens of a script are legible. -/
theorem tokenize_legible (script : String) : ∀ token ∈ tokenize script, token.Legible :=
  ScanState.Worded.scan ⟨ScanState.tidy_initial, nofun⟩ script.toList

/-! ### Texts one after the other -/

/-- The words and groups of the tokens, on no line in particular. -/
def Token.unplacedContent (tokens : List Token) : List Token :=
  (content tokens).map unplaced

theorem Token.unplacedContent_append (first second : List Token) :
    unplacedContent (first ++ second) = unplacedContent first ++ unplacedContent second := by
  simp [unplacedContent, content]

/-- Lines may be left out first. -/
theorem Token.unplacedContent_eq (tokens : List Token) :
    unplacedContent tokens = content (tokens.map unplaced) := by
  rw [unplacedContent, content, content, List.filter_map]
  rfl

/-- The words and groups of a text. -/
def contentOf (text : String) : List Token :=
  Token.unplacedContent (tokenize text)

/-- A space after the text is no part of it: no span and no comment is
open at its end. -/
def Text.Closed (text : String) : Prop :=
  Place.gap.after text.toList = .gap ∨ Place.gap.after text.toList = .word

instance (text : String) : Decidable (Closed text) :=
  inferInstanceAs (Decidable (_ ∨ _))

namespace ScanState

theorem unplacedContent_of_emptyLine {tokens : List Token}
    (h : ∀ token ∈ tokens, token.isEmptyLine) : Token.unplacedContent tokens = [] := by
  rw [Token.unplacedContent, Token.content, List.filter_eq_nil_iff.2 fun token htoken => ?_]
  · rfl
  · simp [h token htoken]

/-- The end of the script completes a run of blank lines there at most. -/
theorem unplacedContent_finish {state : ScanState} (h : state.place = .gap) :
    Token.unplacedContent state.finish.toList = [] := by
  rw [finish]
  rcases mode_of_gap h with ⟨afterReturn, hmode⟩ | ⟨hmode, hempty⟩
  · rw [hmode]
    refine unplacedContent_of_emptyLine fun token htoken => ?_
    obtain ⟨-, rfl⟩ := token?_eq_some_iff.1 (Option.mem_toList.1 htoken)
    rfl
  · rw [hmode]
    simp only [token?, hempty, if_true]
    rfl

/-- Blanks complete nothing there, and a word may begin after them. -/
theorem step_blank_of_gap {state : ScanState} (h : state.place = .gap) {c : Char}
    (hc : isIndent c ∨ isBreak c) : (state.step c).1 = none ∧ (state.step c).2.place = .gap := by
  rw [ScanState.step]
  rcases mode_of_gap h with ⟨afterReturn, hmode⟩ | ⟨hmode, hempty⟩
  · rw [hmode]
    simp only [ScanState.lineStart]
    by_cases hindent : isIndent c
    · rw [if_pos hindent]
      exact ⟨rfl, rfl⟩
    · rw [if_neg hindent, if_pos (hc.resolve_left hindent)]
      split <;> exact ⟨rfl, rfl⟩
  · rw [hmode]
    simp only [ScanState.word, token?, hempty, if_true]
    by_cases hbreak : isBreak c
    · rw [if_pos hbreak]
      exact ⟨rfl, rfl⟩
    · rw [if_neg hbreak, if_pos (hc.resolve_right hbreak)]
      exact ⟨rfl, rfl⟩

/-- The words and groups that are found from a place where one may begin
do not depend on what was before. -/
theorem unplacedContent_scan {state other : ScanState} (h : state.place = .gap)
    (hother : other.place = .gap) (cs : List Char) :
    Token.unplacedContent (state.scan cs) = Token.unplacedContent (other.scan cs) := by
  induction cs generalizing state other with
  | nil => rw [scan, scan, unplacedContent_finish h, unplacedContent_finish hother]
  | cons c cs ih =>
    by_cases hblank : isIndent c ∨ isBreak c
    · obtain ⟨htoken, hnext⟩ := step_blank_of_gap h hblank
      obtain ⟨htoken', hnext'⟩ := step_blank_of_gap hother hblank
      rw [scan, scan, htoken, htoken']
      exact ih hnext hnext'
    · rw [not_or] at hblank
      rw [scan_of_gap h hblank.1 hblank.2, scan_of_gap hother hblank.1 hblank.2,
        Token.unplacedContent_append, Token.unplacedContent_append, unplacedContent_finish h,
        unplacedContent_finish hother]
      rw [Token.unplacedContent_eq, Token.unplacedContent_eq,
        scan_fresh_unplaced state other (c :: cs)]

/-- A space or a tab completes the word under way, and another one may begin
after it. -/
theorem step_indent {state : ScanState} (h : state.place = .gap ∨ state.place = .word) {c : Char}
    (hc : isIndent c) :
    Token.unplacedContent (state.step c).1.toList = Token.unplacedContent state.finish.toList
      ∧ (state.step c).2.place = .gap := by
  rcases h with h | h
  · obtain ⟨htoken, hnext⟩ := step_blank_of_gap h (.inl hc)
    rw [htoken, unplacedContent_finish h]
    exact ⟨rfl, hnext⟩
  · have hmode : state.mode = .word := by
      rw [place] at h
      cases hmode : state.mode <;> simp only [hmode] at h <;> first | rfl | cases h
    have hbreak : ¬ isBreak c := fun hbreak => not_isIndent_of_isBreak hbreak hc
    rw [ScanState.step, finish, hmode]
    simp only [ScanState.word]
    rw [if_neg hbreak, if_pos hc]
    exact ⟨rfl, rfl⟩

end ScanState

/-- Two texts with a space or a tab between them, of which the first is
closed. -/
theorem contentOf_append {first : String} (h : Closed first) {c : Char} (hc : isIndent c)
    (second : String) :
    contentOf (first ++ String.singleton c ++ second) = contentOf first ++ contentOf second := by
  obtain ⟨hplace, -⟩ := ScanState.tidy_initial.after first.toList
  have hend : (ScanState.initial.after first.toList).place = .gap
      ∨ (ScanState.initial.after first.toList).place = .word := hplace ▸ h
  obtain ⟨htoken, hnext⟩ := ScanState.step_indent hend hc
  have hscan : ((ScanState.initial.after first.toList).scan (c :: second.toList))
      = ((ScanState.initial.after first.toList).step c).1.toList
        ++ ((ScanState.initial.after first.toList).step c).2.scan second.toList := rfl
  have hchars : (first ++ String.singleton c ++ second).toList
      = first.toList ++ c :: second.toList := by simp
  have hinitial : ScanState.initial.place = .gap := rfl
  rw [contentOf, contentOf, contentOf, tokenize, tokenize, tokenize, hchars,
    ScanState.scan_append, ScanState.scan_eq_completed _ first.toList, hscan]
  simp only [Token.unplacedContent_append, htoken, List.append_assoc]
  rw [ScanState.unplacedContent_scan hnext hinitial]

/-! ### Texts of tokens -/

/-- The text is read as the tokens, and may stand before a space. -/
structure Prints (text : String) (tokens : List Token) : Prop where
  closed : Closed text
  content_eq : contentOf text = tokens

/-- Any space or tab keeps two texts apart. -/
theorem Prints.append_indent {first second : String} {tokens others : List Token}
    (h : Prints first tokens) (hsecond : Prints second others) {c : Char} (hc : isIndent c) :
    Prints (first ++ String.singleton c ++ second) (tokens ++ others) := by
  refine ⟨?_, ?_⟩
  · -- The second text begins where a word may begin.
    have hchars : (first ++ String.singleton c ++ second).toList
        = first.toList ++ c :: second.toList := by simp
    have hgap : (Place.gap.after first.toList).next c = .gap := by
      have hafter : Place.afterText c = .gap := if_pos (by rw [hc, Bool.or_true])
      have hhash : c ≠ '#' := by
        rintro rfl
        cases hc
      rcases h.closed with hplace | hplace <;> rw [hplace]
      · exact (if_neg hhash).trans hafter
      · exact hafter
    have hsame : Place.gap.after (first ++ String.singleton c ++ second).toList
        = Place.gap.after second.toList := by
      rw [hchars, Place.after_append]
      show ((Place.gap.after first.toList).next c).after second.toList = _
      rw [hgap]
    rw [Closed, hsame]
    exact hsecond.closed
  · rw [contentOf_append h.closed hc, h.content_eq, hsecond.content_eq]

/-- So does the one that a script is written with. -/
theorem Prints.append {first second : String} {tokens others : List Token}
    (h : Prints first tokens) (hsecond : Prints second others) :
    Prints (first ++ " " ++ second) (tokens ++ others) :=
  h.append_indent hsecond (c := ' ') rfl

namespace ScanState

theorem tidy_fresh (state : ScanState) : state.fresh.Tidy :=
  tidy_of_mode rfl

/-- Where the characters stand at the end of a text. -/
theorem place_after_fresh (cs : List Char) : (initial.fresh.after cs).place = Place.gap.after cs :=
  ((tidy_fresh initial).after cs).1

end ScanState

/-- The words and groups of a text that begins with one. -/
theorem contentOf_fresh {text : String} {c : Char} {cs : List Char} (htext : text.toList = c :: cs)
    (hindent : ¬ isIndent c) (hbreak : ¬ isBreak c) :
    contentOf text = Token.unplacedContent (ScanState.initial.fresh.scan text.toList) := by
  have hgap : ScanState.initial.place = .gap := rfl
  rw [contentOf, tokenize, htext, ScanState.scan_of_gap hgap hindent hbreak]
  rfl

/-- A word is read from its characters. -/
theorem Text.IsWord.prints {word : String} (h : IsWord word.toList) :
    Prints word [⟨.word, word, 0⟩] := by
  have hreaches : ScanState.initial.fresh.Reaches word.toList .word (String.ofList word.toList) :=
    ScanState.reaches_word rfl rfl h
  rw [String.ofList_toList] at hreaches
  have hne : word.isEmpty = false := by
    rw [String.isEmpty_eq_false_iff, Ne, ← String.toList_eq_nil_iff]
    exact h.ne_nil
  constructor
  · refine .inr ?_
    rw [← ScanState.place_after_fresh, ScanState.place, hreaches.mode_eq, hreaches.text_eq]
    simp only [hne]
    rfl
  · have hscan := hreaches.scan_append []
    rw [List.append_nil] at hscan
    obtain ⟨c, cs, hword⟩ := List.exists_cons_of_ne_nil h.ne_nil
    obtain ⟨hindent, hbreak, -⟩ :=
      isPlain_iff.1 (h.plain c (hword ▸ List.mem_cons_self))
    rw [contentOf_fresh hword hindent hbreak, hscan, ScanState.scan, ScanState.finish,
      hreaches.mode_eq]
    simp only [ScanState.token?, hreaches.text_eq, hne]
    rfl

/-- A text is read from the span it is written in. -/
theorem prints_write {text : String} (h : text ≠ "") :
    Prints (Span.write text) [⟨.group, text, 0⟩] := by
  have hne : text.toList ≠ [] := fun hnil => h (String.toList_eq_nil_iff.1 hnil)
  have hchars : (Span.write text).toList
      = '%' :: (text.toList.flatMap Span.writeChar ++ ['%']) := by
    rw [Span.write, String.toList_ofList]
    rfl
  generalize hopened : ScanState.initial.fresh.enter (.group false) = opened
  have hmode : opened.mode = .group false := hopened ▸ rfl
  have htext : opened.text = "" := hopened ▸ rfl
  constructor
  · have hheld := (ScanState.reaches_held hmode (Span.held_write text.toList)).mode_eq
    have hlast : ScanState.initial.fresh.after (Span.write text).toList
        = ((opened.after (text.toList.flatMap Span.writeChar)).step '%').2 := by
      rw [hchars, ← hopened]
      exact List.foldl_append
    refine .inl ?_
    rw [← ScanState.place_after_fresh, hlast, ScanState.step_close hheld]
    rfl
  · have hscan : ScanState.initial.fresh.scan (Span.write text).toList
        = opened.scan (text.toList.flatMap Span.writeChar ++ ['%']) := by
      rw [hchars, ← hopened]
      rfl
    rw [contentOf_fresh hchars (by decide) (by decide), hscan, ScanState.scan_write hmode hne,
      htext, String.empty_append, String.ofList_toList]
    rfl

end EventRules

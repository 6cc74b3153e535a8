import EventRules.Proofs.Script.Places

/-!
# `EventRules.Proofs.Script.Written`: words and spans as they are written

What the scanner makes of a word and of the text of a span, from a place
where a word may begin.

* `BeginsWord` holds of characters that are the beginning of one word:
  none of them ends a word, and a `#` in front is not that of a comment.
  `IsWord` holds of the characters of a whole word.
* `Span.held` is the text that a span holds while it is not closed, and
  `Span.held_write` says that a text written into a span is held there.

`ScanState.Reaches` says that characters complete no token, and what the
scanner has under way after them.
-/

set_option autoImplicit false

namespace EventRules

open Text

/-! ### Characters of words and spans -/

namespace Text

/-- Whether the character is one of a word, wherever in the word it
stands. -/
def isPlain (c : Char) : Bool :=
  !isIndent c && !isBreak c && c ≠ '%'

/-- The characters begin a word, if any follow where they do not make
one. -/
structure BeginsWord (cs : List Char) : Prop where
  plain : ∀ c ∈ cs, isPlain c
  hash : ∀ c rest, cs = '#' :: c :: rest → ¬ isBlank c

/-- The characters are a word. A `#` alone is a comment. -/
structure IsWord (cs : List Char) : Prop extends BeginsWord cs where
  ne_nil : cs ≠ []
  ne_hash : cs ≠ ['#']

theorem isPlain_iff {c : Char} : isPlain c ↔ ¬ isIndent c ∧ ¬ isBreak c ∧ c ≠ '%' := by
  simp [isPlain, and_assoc]

theorem BeginsWord.nil : BeginsWord [] :=
  ⟨nofun, nofun⟩

theorem BeginsWord.hash_self : BeginsWord ['#'] :=
  ⟨List.forall_mem_singleton.2 rfl, nofun⟩

namespace IsWord

theorem singleton {c : Char} (hc : isPlain c) (hhash : c ≠ '#') : IsWord [c] :=
  ⟨⟨List.forall_mem_singleton.2 hc, nofun⟩, nofun, by simpa using hhash⟩

/-- A character that is no blank makes a `#` before it the first one of a
word. -/
theorem hash_cons {c : Char} (hc : isPlain c) (hblank : ¬ isBlank c) : IsWord ['#', c] := by
  refine ⟨⟨?_, ?_⟩, nofun, nofun⟩
  · rw [List.forall_mem_cons]
    exact ⟨rfl, List.forall_mem_singleton.2 hc⟩
  · intro d rest heq
    cases heq
    exact hblank

/-- A word goes on with any character that may be of a word. -/
theorem concat {cs : List Char} (h : IsWord cs) {c : Char} (hc : isPlain c) :
    IsWord (cs ++ [c]) := by
  refine ⟨⟨?_, ?_⟩, by simp, ?_⟩
  · rw [List.forall_mem_append]
    exact ⟨h.plain, List.forall_mem_singleton.2 hc⟩
  · intro d rest heq
    cases cs with
    | nil => exact absurd rfl h.ne_nil
    | cons first cs =>
      cases cs with
      | nil =>
        cases heq
        exact absurd rfl h.ne_hash
      | cons second cs =>
        cases heq
        exact h.hash d cs rfl
  · intro heq
    have hlength := congrArg List.length heq
    rw [List.length_append, List.length_singleton] at hlength
    exact h.ne_nil (List.eq_nil_of_length_eq_zero (Nat.succ.inj hlength))

/-- Characters that are those of words, without a number sign, are a word. -/
theorem of_isPlain {cs : List Char} (hne : cs ≠ []) (hplain : ∀ c ∈ cs, isPlain c)
    (hhash : '#' ∉ cs) : IsWord cs := by
  refine ⟨⟨hplain, ?_⟩, hne, ?_⟩
  · rintro c rest rfl
    exact absurd List.mem_cons_self hhash
  · rintro rfl
    exact absurd List.mem_cons_self hhash

end IsWord

namespace Span

/-- A character adds as many line feeds to a span as it is. -/
theorem count_of_read_add {escaping : Bool} {c : Char} {added : List Char}
    (h : read escaping c = .add added) : added.count '\n' = [c].count '\n' := by
  cases escaping with
  | false => rw [eq_of_read_add h]
  | true =>
    rw [read, if_pos rfl] at h
    split at h
    · cases h
      rfl
    · cases h
      exact List.count_cons_of_ne (by decide)

/-- Nor does it add nothing. -/
theorem ne_nil_of_read_add {escaping : Bool} {c : Char} {added : List Char}
    (h : read escaping c = .add added) : added ≠ [] := by
  cases escaping with
  | false =>
    rw [eq_of_read_add h]
    exact List.cons_ne_nil _ _
  | true =>
    rw [read, if_pos rfl] at h
    split at h <;> cases h <;> exact List.cons_ne_nil _ _

/-- The text that a span holds after the characters, and whether a
backslash is undecided at their end. There is none if they close the
span. -/
def held (escaping : Bool) : List Char → Option (List Char × Bool)
  | [] => some ([], escaping)
  | c :: cs =>
    match read escaping c with
    | .add text => (held false cs).map fun (rest, escaping) => (text ++ rest, escaping)
    | .escape => held true cs
    | .close => none

/-- A character as it is written in a span is held there. -/
theorem held_writeChar (c : Char) (cs : List Char) :
    held false (writeChar c ++ cs) = (held false cs).map fun (rest, escaping) =>
      (c :: rest, escaping) := by
  rw [writeChar]
  by_cases hc : c = '%' ∨ c = '\\'
  · rw [if_pos hc]
    show held true (c :: cs) = _
    rw [held, read, if_pos rfl, if_pos hc]
    rfl
  · rw [if_neg hc]
    rw [not_or] at hc
    show held false (c :: cs) = _
    rw [held, read, if_neg Bool.false_ne_true, if_neg hc.2, if_neg hc.1]
    rfl

/-- So is a text. -/
theorem held_write (cs : List Char) : held false (cs.flatMap writeChar) = some (cs, false) := by
  induction cs with
  | nil => rfl
  | cons c cs ih =>
    rw [List.flatMap_cons, held_writeChar, ih]
    rfl

end Span

end Text

/-! ### Tokens by their text -/

/-- A token with the text, on no line in particular, if there is text for
one. -/
def Token.ofText (kind : TokenKind) (text : String) : List Token :=
  if text.isEmpty then [] else [⟨kind, text, 0⟩]

namespace ScanState

theorem unplaced_token? (kind : TokenKind) (state : ScanState) :
    (state.token? kind).toList.map Token.unplaced = Token.ofText kind state.text := by
  rw [token?, Token.ofText]
  cases state.text.isEmpty <;> rfl

/-! ### Characters that complete nothing -/

/-- The characters complete no token. They leave the scanner in a mode,
with a text under way. -/
structure Reaches (state : ScanState) (cs : List Char) (mode : ScanMode) (text : String) :
    Prop where
  completed_eq : state.completed cs = []
  mode_eq : (state.after cs).mode = mode
  text_eq : (state.after cs).text = text

namespace Reaches

variable {state : ScanState} {cs ds : List Char} {mode mode' : ScanMode} {text text' : String}

/-- The scan goes on from there. -/
theorem scan_append (h : state.Reaches cs mode text) (ds : List Char) :
    state.scan (cs ++ ds) = (state.after cs).scan ds := by
  rw [ScanState.scan_append, h.completed_eq, List.nil_append]

theorem cons {c : Char} (hstep : (state.step c).1 = none)
    (h : (state.step c).2.Reaches cs mode text) : state.Reaches (c :: cs) mode text := by
  refine ⟨?_, h.mode_eq, h.text_eq⟩
  rw [completed, hstep, h.completed_eq]
  rfl

theorem append (h : state.Reaches cs mode text)
    (hnext : (state.after cs).Reaches ds mode' text') : state.Reaches (cs ++ ds) mode' text' := by
  induction cs generalizing state with
  | nil => exact hnext
  | cons c cs ih =>
    have hnil := h.completed_eq
    rw [completed, List.append_eq_nil_iff, Option.toList_eq_nil_iff] at hnil
    exact cons hnil.1 (ih ⟨hnil.2, h.mode_eq, h.text_eq⟩ hnext)

end Reaches

/-- A character of a word that has begun. -/
theorem word_plain {c : Char} (hc : isPlain c) {state : ScanState}
    (hhash : c = '#' → state.text.isEmpty = false) :
    state.word c = (none, (state.push c).enter .word) := by
  obtain ⟨hindent, hbreak, hpercent⟩ := isPlain_iff.1 hc
  have hcomment : ¬ (c = '#' ∧ state.text.isEmpty) := by
    rintro ⟨hc, hempty⟩
    rw [hhash hc] at hempty
    cases hempty
  rw [ScanState.word, if_neg hbreak, if_neg hindent, if_neg hpercent, if_neg hcomment]

/-- More characters of a word. -/
theorem reaches_plain {state : ScanState} (hmode : state.mode = .word)
    (htext : state.text.isEmpty = false) {cs : List Char} (hcs : ∀ c ∈ cs, isPlain c) :
    state.Reaches cs .word (state.text ++ String.ofList cs) := by
  induction cs generalizing state with
  | nil => exact ⟨rfl, hmode, String.append_empty.symm⟩
  | cons c cs ih =>
    rw [List.forall_mem_cons] at hcs
    have hstep : state.step c = (none, (state.push c).enter .word) := by
      rw [ScanState.step, hmode]
      exact word_plain hcs.1 fun _ => htext
    have hrest : ((state.push c).enter .word).Reaches cs .word
        (state.text.push c ++ String.ofList cs) := ih rfl (isEmpty_push _ _) hcs.2
    have hsame : state.text.push c ++ String.ofList cs = state.text ++ String.ofList (c :: cs) := by
      rw [← String.toList_inj]
      simp
    refine .cons (by rw [hstep]) ?_
    rw [hstep, ← hsame]
    exact hrest

/-- A word from its first character on. -/
theorem reaches_word {state : ScanState} (hmode : state.mode = .word) (htext : state.text = "")
    {cs : List Char} (hcs : IsWord cs) : state.Reaches cs .word (String.ofList cs) := by
  have hpush : ∀ c rest, state.text.push c ++ String.ofList rest = String.ofList (c :: rest) := by
    intro c rest
    rw [htext, ← String.toList_inj]
    simp
  cases cs with
  | nil => exact absurd rfl hcs.ne_nil
  | cons c cs =>
    have hplain := List.forall_mem_cons.1 hcs.plain
    by_cases hhash : c = '#'
    · -- The character after the `#` decides that this is a word.
      subst hhash
      cases cs with
      | nil => exact absurd rfl hcs.ne_hash
      | cons d cs =>
        rw [List.forall_mem_cons] at hplain
        have hbreak : ¬ isBreak d := (isPlain_iff.1 hplain.2.1).2.1
        have hfirst : state.step '#' = (none, state.enter .hash) := by
          rw [ScanState.step, hmode]
          simp only [ScanState.word, htext]
          rfl
        have hsecond : (state.enter .hash).step d
            = (none, (((state.enter .hash).push '#').push d).enter .word) := by
          show (state.enter .hash).hash d = _
          rw [ScanState.hash, if_neg hbreak, if_neg (hcs.hash d cs rfl)]
          exact word_plain hplain.2.1 fun _ => isEmpty_push _ _
        refine .cons (by rw [hfirst]) ?_
        rw [hfirst]
        refine .cons (by rw [hsecond]) ?_
        have hbegun : ((((state.enter .hash).push '#').push d).enter .word).text.isEmpty = false :=
          isEmpty_push _ _
        have hrest := reaches_plain rfl hbegun hplain.2.2
        have htext' : ((state.text.push '#').push d) ++ String.ofList cs
            = String.ofList ('#' :: d :: cs) := by
          rw [htext, ← String.toList_inj]
          simp
        rw [hsecond, ← htext']
        exact hrest
    · have hstep : state.step c = (none, (state.push c).enter .word) := by
        rw [ScanState.step, hmode]
        exact word_plain hplain.1 fun hc => absurd hc hhash
      refine .cons (by rw [hstep]) ?_
      rw [hstep, ← hpush]
      exact reaches_plain rfl (isEmpty_push _ _) hplain.2

/-- A span that opens where a word may begin, or inside a word. -/
theorem reaches_open {state : ScanState} (hmode : state.mode = .word) (htext : state.text = "")
    {cs : List Char} (hcs : BeginsWord cs) :
    state.Reaches (cs ++ ['%']) (.group false) (String.ofList cs) := by
  have hopen : ∀ {state : ScanState}, state.mode = .word →
      state.Reaches ['%'] (.group false) state.text := by
    intro state hmode
    have hstep : state.step '%' = (none, state.enter (.group false)) := by
      rw [ScanState.step, hmode]
      rfl
    refine .cons (by rw [hstep]) ?_
    rw [hstep]
    exact ⟨rfl, rfl, rfl⟩
  by_cases hnil : cs = []
  · subst hnil
    have hspan := hopen hmode
    rw [htext] at hspan
    exact hspan
  by_cases hhash : cs = ['#']
  · -- The percent sign decides that the `#` is of a word.
    subst hhash
    have hfirst : state.step '#' = (none, state.enter .hash) := by
      rw [ScanState.step, hmode]
      simp only [ScanState.word, htext]
      rfl
    have hsecond : (state.enter .hash).step '%'
        = (none, ((state.enter .hash).push '#').enter (.group false)) := rfl
    refine .cons (by rw [hfirst]) ?_
    rw [hfirst]
    refine .cons (by rw [hsecond]) ?_
    rw [hsecond]
    refine ⟨rfl, rfl, ?_⟩
    show state.text.push '#' = "#"
    rw [htext]
    rfl
  · have hword := reaches_word hmode htext ⟨hcs, hnil, hhash⟩
    have hspan := hopen hword.mode_eq
    rw [hword.text_eq] at hspan
    exact hword.append hspan

/-- A character that is text of a span. -/
theorem step_add {state : ScanState} {escaping : Bool} (hmode : state.mode = .group escaping)
    {c : Char} {added : List Char} (hread : Span.read escaping c = .add added) :
    state.step c = (none, ((state.add added).count c).enter (.group false)) := by
  rw [ScanState.step, hmode]
  simp only [group]
  rw [hread]

/-- A backslash in a span that waits for the next character. -/
theorem step_escape {state : ScanState} {escaping : Bool} (hmode : state.mode = .group escaping)
    {c : Char} (hread : Span.read escaping c = .escape) :
    state.step c = (none, state.enter (.group true)) := by
  rw [ScanState.step, hmode]
  simp only [group]
  rw [hread]

/-- What a span holds is added to the text under way. -/
theorem reaches_held {state : ScanState} {escaping escaping' : Bool}
    (hmode : state.mode = .group escaping) {cs text : List Char}
    (h : Span.held escaping cs = some (text, escaping')) :
    state.Reaches cs (.group escaping') (state.text ++ String.ofList text) := by
  induction cs generalizing state escaping text with
  | nil =>
    cases h
    exact ⟨rfl, hmode, String.append_empty.symm⟩
  | cons c cs ih =>
    rw [Span.held] at h
    cases hread : Span.read escaping c with
    | add added =>
      have hstep := step_add hmode hread
      rw [hread] at h
      obtain ⟨⟨rest, last⟩, hrest, hpair⟩ := Option.map_eq_some_iff.1 h
      cases hpair
      have hmode' : (((state.add added).count c).enter (.group false)).mode = .group false := rfl
      have hnext := ih hmode' hrest
      have hsame : (((state.add added).count c).enter (.group false)).text ++ String.ofList rest
          = state.text ++ String.ofList (added ++ rest) := by
        show ((state.add added).count c).text ++ _ = _
        rw [text_count, text_add, String.ofList_append, String.append_assoc]
      refine .cons (by rw [hstep]) ?_
      rw [hstep, ← hsame]
      exact hnext
    | escape =>
      have hstep := step_escape hmode hread
      rw [hread] at h
      refine .cons (by rw [hstep]) ?_
      rw [hstep]
      exact ih rfl h
    | close =>
      rw [hread] at h
      cases h

/-- A percent sign closes a span and completes its group. -/
theorem step_close {state : ScanState} (hmode : state.mode = .group false) :
    state.step '%' = (state.token? .group, state.fresh) := by
  rw [ScanState.step, hmode]
  rfl

/-- A span that nothing closes is one group, up to the end of the
script. -/
theorem scan_held {state : ScanState} {escaping escaping' : Bool}
    (hmode : state.mode = .group escaping) {cs text : List Char}
    (h : Span.held escaping cs = some (text, escaping')) :
    (state.scan cs).map Token.unplaced
      = Token.ofText .group
          (state.text ++ String.ofList (text ++ Span.unfinished escaping')) := by
  have hreaches := reaches_held hmode h
  have hscan := hreaches.scan_append []
  rw [List.append_nil] at hscan
  rw [hscan, scan, finish, hreaches.mode_eq]
  simp only
  rw [unplaced_token?, text_add, hreaches.text_eq, String.ofList_append, String.append_assoc]

end ScanState

end EventRules

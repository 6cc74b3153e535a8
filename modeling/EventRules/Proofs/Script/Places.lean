import EventRules.Proofs.Script.Lines

/-!
# `EventRules.Proofs.Script.Places`: where a character stands

What a character means depends on where it stands: between words, in a
word, in a comment or in a span. `Place` says no more than this. It knows
neither lines nor the text of tokens, and `Place.next` moves it from one
character to the next.

The scanner keeps to it: `ScanState.place` is the place of a state, and
`ScanState.Tidy.place_after` says that it moves along with the characters.
`ScanState.scan_of_gap` is how a script is taken apart where a word may
begin: what comes before is complete, and the rest is read by a scanner
that has nothing under way.
-/

set_option autoImplicit false

namespace EventRules

open Text

/-- Where a character stands. -/
inductive Place where
  /-- Where a word may begin. -/
  | gap
  /-- Inside a word. -/
  | word
  /-- After a `#` that begins a word or a comment. -/
  | hash
  /-- In a comment. -/
  | comment
  /-- In a span, after an undecided backslash or not. -/
  | span (escaping : Bool)
  deriving DecidableEq, Repr

namespace Place

/-- Whether the character stands in a span. -/
def inSpan : Place → Bool
  | span _ => true
  | _ => false

/-- The place after a character that neither a comment nor a span
holds. -/
def afterText (c : Char) : Place :=
  if isBreak c || isIndent c then gap
  else if c = '%' then span false
  else word

/-- The place after a character. A percent sign opens no span in a
comment, and a line break ends everything but a span. -/
def next (place : Place) (c : Char) : Place :=
  match place with
  | gap => if c = '#' then hash else afterText c
  | word => afterText c
  | hash => if isBlank c && !isBreak c then comment else afterText c
  | comment => if isBreak c then gap else comment
  | span escaping =>
    match Span.read escaping c with
    | .add _ => span false
    | .escape => span true
    | .close => gap

/-- The place after the characters. -/
def after (place : Place) (cs : List Char) : Place :=
  cs.foldl next place

theorem after_append (place : Place) (cs ds : List Char) :
    place.after (cs ++ ds) = (place.after cs).after ds :=
  List.foldl_append

end Place

/-- Whether a `#` is held back or a comment is under way. -/
def ScanMode.isComment : ScanMode → Bool
  | .hash | .comment => true
  | _ => false

namespace ScanState

/-! ### The place of a state -/

/-- Where the next character stands. -/
def place (state : ScanState) : Place :=
  match state.mode with
  | .lineStart _ => .gap
  | .word => if state.text.isEmpty then .gap else .word
  | .hash => .hash
  | .comment => .comment
  | .group escaping => .span escaping

/-- No token is under way in a comment, or before one. -/
def Tidy (state : ScanState) : Prop :=
  state.mode = .hash ∨ state.mode = .comment → state.text.isEmpty

theorem inGroup_eq_inSpan (state : ScanState) : state.inGroup = state.place.inSpan := by
  rw [inGroup, place]
  cases state.mode with
  | word => cases state.text.isEmpty <;> rfl
  | _ => rfl

theorem tidy_of_mode {state : ScanState} (h : state.mode.isComment = false) : state.Tidy := by
  rintro (hmode | hmode)
  · rw [hmode] at h
    cases h
  · rw [hmode] at h
    cases h

/-- The state after a step stands in a place, and is tidy. -/
def Stands (state : ScanState) (place : Place) : Prop :=
  state.place = place ∧ state.Tidy

theorem stands_word (state : ScanState) {c : Char}
    (h : c = '#' → state.text.isEmpty = false) :
    (state.word c).2.Stands (Place.afterText c) := by
  rw [ScanState.word, Place.afterText]
  by_cases hbreak : isBreak c
  · simp only [hbreak, if_true, Bool.true_or]
    exact ⟨rfl, tidy_of_mode rfl⟩
  by_cases hindent : isIndent c
  · simp only [hbreak, hindent, Bool.false_eq_true, if_false, if_true, Bool.or_true]
    exact ⟨rfl, tidy_of_mode rfl⟩
  simp only [hbreak, hindent, Bool.false_eq_true, if_false, Bool.or_self]
  by_cases hpercent : c = '%'
  · rw [if_pos hpercent, if_pos hpercent]
    exact ⟨rfl, tidy_of_mode rfl⟩
  rw [if_neg hpercent, if_neg hpercent]
  have hhash : ¬ (c = '#' ∧ state.text.isEmpty) := by
    rintro ⟨rfl, hempty⟩
    rw [h rfl] at hempty
    cases hempty
  rw [if_neg hhash]
  refine ⟨?_, tidy_of_mode rfl⟩
  show (if (state.text.push c).isEmpty then Place.gap else Place.word) = Place.word
  rw [isEmpty_push]
  rfl

/-- A character where a word may begin. -/
theorem stands_word_of_empty {state : ScanState} (hempty : state.text.isEmpty) (c : Char) :
    (state.word c).2.Stands (Place.gap.next c) := by
  rw [Place.next]
  by_cases hhash : c = '#'
  · subst hhash
    rw [if_pos rfl, ScanState.word]
    simp only [hempty, and_self, if_true]
    exact ⟨rfl, fun _ => hempty⟩
  · rw [if_neg hhash]
    exact stands_word state fun hc => absurd hc hhash

namespace Tidy

variable {state : ScanState}

theorem step_lineStart (afterReturn : Bool) (c : Char) :
    (state.lineStart afterReturn c).2.Stands (Place.gap.next c) := by
  rw [ScanState.lineStart]
  by_cases hindent : isIndent c
  · rw [if_pos hindent]
    have hnext : Place.gap.next c = .gap := by
      rw [Place.next, if_neg (by rintro rfl; cases hindent), Place.afterText, hindent,
        Bool.or_true, if_pos rfl]
    exact ⟨hnext.symm, tidy_of_mode rfl⟩
  rw [if_neg hindent]
  by_cases hbreak : isBreak c
  · have hnext : Place.gap.next c = .gap := by
      rw [Place.next, if_neg (by rintro rfl; cases hbreak), Place.afterText, hbreak,
        Bool.true_or, if_pos rfl]
    rw [hnext, if_pos hbreak]
    split <;> exact ⟨rfl, tidy_of_mode rfl⟩
  · have hfeed : ¬ (c = '\n' ∧ afterReturn) := by
      rintro ⟨rfl, -⟩
      exact hbreak rfl
    rw [if_neg hfeed, if_neg hbreak]
    exact stands_word_of_empty rfl c

/-- A step moves the place. -/
theorem step (h : state.Tidy) (c : Char) : (state.step c).2.Stands (state.place.next c) := by
  rw [ScanState.step, place]
  cases hmode : state.mode with
  | lineStart afterReturn => exact step_lineStart afterReturn c
  | word =>
    simp only
    cases hempty : state.text.isEmpty with
    | true => exact stands_word_of_empty hempty c
    | false => exact stands_word state fun _ => hempty
  | hash =>
    simp only [ScanState.hash, Place.next]
    have hempty : state.text.isEmpty := h (.inl hmode)
    by_cases hbreak : isBreak c
    · simp only [hbreak, if_true, Bool.not_true, Bool.and_false, Bool.false_eq_true, if_false]
      exact stands_word state fun hc => by subst hc; cases hbreak
    by_cases hblank : isBlank c
    · simp only [hbreak, hblank, Bool.false_eq_true, if_false, if_true, Bool.not_false,
        Bool.and_true]
      exact ⟨rfl, fun _ => hempty⟩
    · -- The `#` is the first character of a word.
      simp only [hbreak, hblank, Bool.false_eq_true, if_false, Bool.false_and]
      exact stands_word _ fun _ => isEmpty_push _ _
  | comment =>
    simp only [ScanState.comment, Place.next]
    have hempty : state.text.isEmpty := h (.inr hmode)
    by_cases hbreak : isBreak c
    · rw [if_pos hbreak, if_pos hbreak, ScanState.word, if_pos hbreak]
      exact ⟨rfl, tidy_of_mode rfl⟩
    · rw [if_neg hbreak, if_neg hbreak]
      exact ⟨by rw [place, hmode], fun _ => hempty⟩
  | group escaping =>
    simp only [ScanState.group, Place.next]
    cases Span.read escaping c with
    | add cs => exact ⟨rfl, tidy_of_mode rfl⟩
    | escape => exact ⟨rfl, tidy_of_mode rfl⟩
    | close => exact ⟨rfl, tidy_of_mode rfl⟩

/-- The place moves along with the characters. -/
theorem after (h : state.Tidy) (cs : List Char) :
    (state.after cs).Stands (state.place.after cs) := by
  induction cs generalizing state with
  | nil => exact ⟨rfl, h⟩
  | cons c cs ih =>
    obtain ⟨hplace, htidy⟩ := h.step c
    have hnext := ih htidy
    rw [hplace] at hnext
    exact hnext

end Tidy

theorem tidy_initial : initial.Tidy :=
  tidy_of_mode rfl

/-! ### Scans that start where a word may begin -/

/-- The state with nothing under way, on a line that has begun. -/
def fresh (state : ScanState) : ScanState :=
  state.cleared.enter .word

/-- A character that is no blank completes nothing on a line. -/
theorem word_eq_none {c : Char} (hindent : ¬ isIndent c) (hbreak : ¬ isBreak c)
    (state : ScanState) : (state.word c).1 = none := by
  rw [ScanState.word, if_neg hbreak, if_neg hindent]
  split
  · rfl
  split <;> rfl

/-- It moves to a mode of its own. -/
theorem word_cleared {c : Char} (hindent : ¬ isIndent c) (hbreak : ¬ isBreak c)
    (state : ScanState) : state.cleared.word c = state.fresh.word c := by
  rw [ScanState.word, ScanState.word, if_neg hbreak, if_neg hindent, if_neg hbreak,
    if_neg hindent]
  rfl

/-- Where a word may begin, the scanner is before the text of a line or has
nothing under way. -/
theorem mode_of_gap {state : ScanState} (h : state.place = .gap) :
    (∃ afterReturn, state.mode = .lineStart afterReturn)
      ∨ state.mode = .word ∧ state.text.isEmpty := by
  rw [place] at h
  cases hmode : state.mode with
  | lineStart afterReturn => exact .inl ⟨afterReturn, rfl⟩
  | word =>
    cases hempty : state.text.isEmpty with
    | true => exact .inr ⟨rfl, rfl⟩
    | false =>
      simp only [hmode, hempty] at h
      cases h
  | hash =>
    rw [hmode] at h
    cases h
  | comment =>
    rw [hmode] at h
    cases h
  | group escaping =>
    rw [hmode] at h
    cases h

/-- The first character of a word ends the run of blank lines under way
there, if there is one. -/
theorem scan_of_gap {state : ScanState} (h : state.place = .gap) {c : Char}
    (hindent : ¬ isIndent c) (hbreak : ¬ isBreak c) (cs : List Char) :
    state.scan (c :: cs) = state.finish.toList ++ state.fresh.scan (c :: cs) := by
  have hfresh : state.fresh.scan (c :: cs) = (state.fresh.word c).2.scan cs := by
    show (state.fresh.word c).1.toList ++ (state.fresh.word c).2.scan cs = _
    rw [word_eq_none hindent hbreak]
    rfl
  rcases mode_of_gap h with ⟨afterReturn, hmode⟩ | ⟨hmode, hempty⟩
  · have hfeed : ¬ (c = '\n' ∧ afterReturn) := by
      rintro ⟨rfl, -⟩
      exact hbreak rfl
    rw [hfresh, scan, ScanState.step, finish, hmode]
    simp only [ScanState.lineStart]
    rw [if_neg hindent, if_neg hfeed, if_neg hbreak, word_cleared hindent hbreak]
  · -- With nothing under way the scanner is as on a fresh line.
    have hsame : state.fresh = state := by
      obtain ⟨mode, text, line, start⟩ := state
      cases hmode
      cases String.isEmpty_iff.1 hempty
      rfl
    rw [hsame, finish, hmode]
    simp only [token?, hempty, if_true]
    rfl

end ScanState

/-! ### Tokens without their lines -/

/-- The token on no line in particular. -/
def Token.unplaced (token : Token) : Token :=
  { token with line := 0 }

namespace ScanState

/-- With nothing under way, what the scanner finds depends on the mode
alone, lines aside. -/
theorem scan_unplaced {state other : ScanState} (hmode : state.mode = other.mode)
    (htext : state.text = "") (hother : other.text = "") (cs : List Char) :
    (state.scan cs).map Token.unplaced = (other.scan cs).map Token.unplaced := by
  have hshift : ∀ lines, Token.unplaced ∘ Token.shift lines = Token.unplaced := fun _ => rfl
  -- Both are further down than a scan that starts on line 0.
  have hstate : Ahead state.line state ⟨state.mode, "", 0, 0⟩ :=
    ⟨rfl, htext, (Nat.zero_add _).symm, fun hempty => by rw [htext] at hempty; cases hempty⟩
  have hbase : Ahead other.line other ⟨state.mode, "", 0, 0⟩ :=
    ⟨hmode.symm, hother, (Nat.zero_add _).symm,
      fun hempty => by rw [hother] at hempty; cases hempty⟩
  rw [scan_ahead hstate, scan_ahead hbase, List.map_map, List.map_map, hshift, hshift]

theorem scan_fresh_unplaced (state other : ScanState) (cs : List Char) :
    (state.fresh.scan cs).map Token.unplaced = (other.fresh.scan cs).map Token.unplaced := by
  have hmode : state.fresh.mode = other.fresh.mode := rfl
  exact scan_unplaced hmode rfl rfl cs

end ScanState

end EventRules

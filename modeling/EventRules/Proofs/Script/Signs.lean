import EventRules.Proofs.Script.Places

/-!
# `EventRules.Proofs.Script.Signs`: percent and number signs

A percent sign opens and closes spans, and a number sign begins comments.
The scanner makes no such signs: the texts of the tokens have at most as
many as the script (`signs_tokenize`). A sign that opened a span or a
comment is in no text. So a script that ends in one has more signs than
its tokens, which is what `ScanMode.owed` counts.

In other words, a script with no more signs than its tokens have ends
outside spans and comments (`place_of_signs_le`).
-/

set_option autoImplicit false

namespace EventRules

/-! ### Signs of a text -/

namespace Text

/-- A sign that opens a span or a comment. -/
def isSign (c : Char) : Bool :=
  c = '%' || c = '#'

/-- The number of percent signs and number signs. -/
def signs (cs : List Char) : Nat :=
  cs.countP isSign

@[simp] theorem signs_append (cs ds : List Char) : signs (cs ++ ds) = signs cs + signs ds :=
  List.countP_append

theorem signs_cons (c : Char) (cs : List Char) : signs (c :: cs) = signs [c] + signs cs :=
  signs_append [c] cs

theorem signs_eq_zero {cs : List Char} (h : ∀ c ∈ cs, isSign c = false) : signs cs = 0 := by
  rw [signs, List.countP_eq_zero]
  intro c hc
  rw [h c hc]
  exact Bool.false_ne_true

theorem signs_le_of_sublist {cs ds : List Char} (h : cs.Sublist ds) : signs cs ≤ signs ds :=
  h.countP_le

/-- Signs of texts with separators between them. -/
theorem signs_intercalate {separator : String} (h : signs separator.toList = 0)
    (texts : List String) :
    signs (String.intercalate separator texts).toList = signs (texts.flatMap String.toList) := by
  induction texts with
  | nil => rfl
  | cons text texts ih =>
    cases texts with
    | nil => simp [String.intercalate_singleton]
    | cons next texts =>
      rw [String.intercalate_cons_cons, List.flatMap_cons, signs_append, ← ih]
      simp only [String.toList_append, signs_append, h]
      omega

/-- A span adds the characters it is given. -/
theorem signs_of_read {escaping : Bool} {c : Char} {added : List Char}
    (h : Span.read escaping c = .add added) : signs added = signs [c] := by
  have hbackslash : signs ['\\'] = 0 := rfl
  rw [Span.read] at h
  split at h
  · split at h
    · cases h
      rfl
    · cases h
      rw [signs_cons, hbackslash, Nat.zero_add]
  · split at h
    · cases h
    · split at h
      · cases h
      · cases h
        rfl

end Text

open Text

/-- The signs in the texts of the tokens. -/
def Token.signs (tokens : List Token) : Nat :=
  Text.signs ((texts tokens).flatMap String.toList)

@[simp] theorem Token.signs_append (first second : List Token) :
    signs (first ++ second) = signs first + signs second := by
  simp [signs, texts]

/-- Runs of blank lines are left out. -/
theorem Token.signs_content_le (tokens : List Token) :
    signs (content tokens) ≤ signs tokens := by
  induction tokens with
  | nil => exact Nat.le_refl _
  | cons token rest ih =>
    have hcons : ∀ rest, signs (token :: rest) = signs [token] + signs rest :=
      fun rest => signs_append [token] rest
    rw [hcons]
    cases hline : token.isEmptyLine with
    | true =>
      rw [content, List.filter_cons_of_neg (by simp [hline])]
      exact Nat.le_trans ih (Nat.le_add_left _ _)
    | false =>
      rw [content, List.filter_cons_of_pos (by simp [hline]), hcons]
      exact Nat.add_le_add_left ih _

/-! ### The scanner -/

/-- The sign that the scanner has read and that is in no text. -/
def ScanMode.owed : ScanMode → Nat
  | lineStart _ | word => 0
  | hash | comment | group _ => 1

namespace ScanState

/-- The signs in the text under way, and the one that is in no text. -/
def signs (state : ScanState) : Nat :=
  Text.signs state.text.toList + state.mode.owed

theorem signs_token? (kind : TokenKind) (state : ScanState) :
    Token.signs (state.token? kind).toList = Text.signs state.text.toList := by
  rw [token?]
  cases hempty : state.text.isEmpty with
  | true =>
    rw [String.isEmpty_iff.1 hempty]
    rfl
  | false => simp [Token.signs, Token.texts]

theorem signs_push (c : Char) (state : ScanState) :
    Text.signs (state.push c).text.toList = Text.signs state.text.toList + Text.signs [c] := by
  show Text.signs (state.text.push c).toList = _
  rw [String.toList_push, Text.signs_append]

theorem signs_add (cs : List Char) (state : ScanState) :
    Text.signs (state.add cs).text.toList = Text.signs state.text.toList + Text.signs cs := by
  rw [text_add, String.toList_append, String.toList_ofList, Text.signs_append]

/-- The signs of a token that is completed, if any, and of the state after
it. -/
def signsOf (result : Option Token × ScanState) : Nat :=
  Token.signs result.1.toList + result.2.signs

theorem signs_word (state : ScanState) (c : Char) :
    signsOf (state.word c) ≤ Text.signs state.text.toList + Text.signs [c] := by
  rw [ScanState.word, signsOf]
  split
  · rw [signs_token?]
    exact Nat.le_add_right _ _
  split
  · rw [signs_token?]
    exact Nat.le_add_right _ _
  split
  · next hc =>
    subst hc
    exact Nat.le_of_eq (Nat.zero_add _)
  split
  · next hc =>
    obtain ⟨rfl, -⟩ := hc
    exact Nat.le_of_eq (Nat.zero_add _)
  · have hpush := signs_push c state
    show 0 + (Text.signs (state.push c).text.toList + 0) ≤ _
    omega

theorem signs_lineStart (state : ScanState) (afterReturn : Bool) (c : Char) :
    signsOf (state.lineStart afterReturn c) ≤ Text.signs state.text.toList + Text.signs [c] := by
  rw [ScanState.lineStart]
  split
  · show 0 + (Text.signs state.text.toList + 0) ≤ _
    omega
  split
  · show 0 + (Text.signs state.text.toList + 0) ≤ _
    omega
  split
  · have hpush := signs_push c state
    show 0 + (Text.signs ((state.push c).count c).text.toList + 0) ≤ _
    rw [text_count]
    omega
  · have hword := signs_word state.cleared c
    rw [signsOf] at hword ⊢
    simp only at hword ⊢
    rw [signs_token?]
    have hempty : Text.signs state.cleared.text.toList = 0 := rfl
    omega

/-- A character adds one sign at most, itself. -/
theorem signs_step (state : ScanState) (c : Char) :
    signsOf (state.step c) ≤ state.signs + Text.signs [c] := by
  have hword := signs_word state c
  rw [ScanState.step, signs]
  cases hmode : state.mode with
  | lineStart afterReturn => exact signs_lineStart state afterReturn c
  | word => exact hword
  | hash =>
    simp only [ScanState.hash, ScanMode.owed]
    split
    · omega
    split
    · show 0 + (Text.signs state.text.toList + 1) ≤ _
      omega
    · -- The sign that was owed is one of the word.
      have hnext := signs_word (state.push '#') c
      rw [signs_push] at hnext
      exact hnext
  | comment =>
    simp only [ScanState.comment, ScanMode.owed]
    split
    · omega
    · rw [signsOf, signs, hmode]
      show 0 + (Text.signs state.text.toList + 1) ≤ _
      omega
  | group escaping =>
    simp only [ScanState.group, ScanMode.owed]
    cases hread : Span.read escaping c with
    | add added =>
      have hadd := signs_add added state
      rw [signs_of_read hread] at hadd
      show 0 + (Text.signs ((state.add added).count c).text.toList + 1) ≤ _
      rw [text_count]
      omega
    | escape =>
      show 0 + (Text.signs state.text.toList + 1) ≤ _
      omega
    | close =>
      rw [signsOf, signs_token?]
      show Text.signs state.text.toList + 0 ≤ _
      omega

theorem signs_finish (state : ScanState) :
    Token.signs state.finish.toList = Text.signs state.text.toList := by
  rw [finish]
  cases state.mode with
  | group escaping =>
    have hnone : Text.signs (Span.unfinished escaping) = 0 := by cases escaping <;> rfl
    simp only
    rw [signs_token?, signs_add, hnone, Nat.add_zero]
  | _ => exact signs_token? _ state

theorem signs_scan (state : ScanState) (cs : List Char) :
    Token.signs (state.scan cs) + (state.after cs).mode.owed ≤ state.signs + Text.signs cs := by
  induction cs generalizing state with
  | nil =>
    rw [scan, signs_finish]
    exact Nat.le_refl _
  | cons c cs ih =>
    have hstep := signs_step state c
    have hrest := ih (state.step c).2
    rw [signsOf] at hstep
    rw [scan, Token.signs_append, Text.signs_cons]
    show _ + ((state.step c).2.after cs).mode.owed ≤ _
    omega

end ScanState

/-- The tokens of a script have no more signs than the script, and fewer
if the script ends in a span or a comment. -/
theorem signs_tokenize (script : String) :
    Token.signs (tokenize script) + (ScanState.initial.after script.toList).mode.owed
      ≤ signs script.toList := by
  have hscan := ScanState.signs_scan ScanState.initial script.toList
  have hinitial : ScanState.initial.signs = 0 := rfl
  rw [hinitial, Nat.zero_add] at hscan
  exact hscan

/-- A script that has no more signs than its tokens ends outside spans
and comments. -/
theorem place_of_signs_le {script : String}
    (h : signs script.toList ≤ Token.signs (tokenize script)) :
    Place.gap.after script.toList = .gap ∨ Place.gap.after script.toList = .word := by
  have hsigns := signs_tokenize script
  have howed : (ScanState.initial.after script.toList).mode.owed = 0 := by omega
  have hplace : Place.gap.after script.toList = (ScanState.initial.after script.toList).place :=
    (ScanState.tidy_initial.after script.toList).1.symm
  rw [hplace, ScanState.place]
  cases hmode : (ScanState.initial.after script.toList).mode with
  | lineStart afterReturn => exact .inl rfl
  | word => cases (ScanState.initial.after script.toList).text.isEmpty <;> simp
  | hash =>
    rw [hmode] at howed
    cases howed
  | comment =>
    rw [hmode] at howed
    cases howed
  | group escaping =>
    rw [hmode] at howed
    cases howed

end EventRules

import EventRules.Proofs.Script.LogicalLines
import EventRules.Text.Words

/-!
# `EventRules.Proofs.Script.WordSplitting`: two readers of the same words

A script is cut into tokens by `tokenize`, and a text without lines into
words by `splitWords`. The two share what a character in a span means
(`Span.read`) and nothing else: the scanner knows line starts, comments
and runs of blank lines, and it ends a token where a span closes, while
the splitter goes on with the word.

`texts_tokenize_eq_splitWords` says that they find the same texts in a
text that is plainly spaced. `PlainlySpaced` leaves out the three things
that they read differently: blanks other than spaces, tabs and line
breaks, comments, and spans with text glued to their end.

`ScanState.words` is the state of the splitter that has read as much as
the scanner. A step of both keeps to it with one exception: the splitter
completes the word of a closing span one character later.
-/

set_option autoImplicit false

namespace EventRules

open Text

/-! ### Plainly spaced texts -/

/-- Whether characters, of which the first one stands in a place, are
spaced in a way that both readers understand. -/
def PlainlySpaced (place : Place) : List Char → Prop
  | [] =>
    -- A `#` at the end would be a comment.
    place ≠ .hash
  | c :: cs =>
    -- Blanks outside spans are those of a script. None makes a `#`
    -- before it a comment.
    (isBlank c → place.inSpan ∨ place ≠ .hash ∧ (isIndent c ∨ isBreak c))
      -- A blank or nothing comes after a span.
      ∧ (place = .span false → c = '%' → cs.head?.all isBlank)
      ∧ PlainlySpaced (place.next c) cs

instance PlainlySpaced.decidable :
    (place : Place) → (cs : List Char) → Decidable (PlainlySpaced place cs)
  | place, [] => inferInstanceAs (Decidable (place ≠ .hash))
  | place, c :: cs =>
    have := PlainlySpaced.decidable (place.next c) cs
    inferInstanceAs (Decidable (_ ∧ _ ∧ PlainlySpaced (place.next c) cs))

theorem Place.afterText_ne_comment (c : Char) : afterText c ≠ .comment := by
  rw [afterText]
  split
  · exact fun h => Place.noConfusion h
  split
  · exact fun h => Place.noConfusion h
  · exact fun h => Place.noConfusion h

/-- A comment begins with a blank after a `#`, and nowhere else. -/
theorem Place.next_ne_comment {place : Place} {c : Char} (hplace : place ≠ .comment)
    (hhash : place = .hash → ¬ isBlank c) : place.next c ≠ .comment := by
  cases place with
  | gap =>
    rw [next]
    split
    · exact fun h => Place.noConfusion h
    · exact afterText_ne_comment c
  | word => exact afterText_ne_comment c
  | hash =>
    have hblank : ¬ (isBlank c && !isBreak c) := fun h =>
      hhash rfl (Bool.and_eq_true_iff.1 h).1
    rw [next, if_neg hblank]
    exact afterText_ne_comment c
  | comment => exact absurd rfl hplace
  | span escaping =>
    rw [next]
    cases Span.read escaping c with
    | add _ => exact fun h => Place.noConfusion h
    | escape => exact fun h => Place.noConfusion h
    | close => exact fun h => Place.noConfusion h

/-! ### The splitter -/

/-- A word ends before a blank and at the end of the text. -/
theorem Text.WordState.scan_ended (word : String) {cs : List Char}
    (h : cs.head?.all isBlank) :
    (⟨word, none⟩ : WordState).scan cs
      = (⟨word, none⟩ : WordState).finished ++ WordState.start.scan cs := by
  cases cs with
  | nil => exact (List.append_nil _).symm
  | cons c cs =>
    have hblank : isBlank c := h
    simp only [WordState.scan, WordState.step, WordState.start, hblank, if_true]
    rfl

namespace ScanState

/-! ### The splitter beside the scanner -/

/-- The splitter that has read as much as the scanner. -/
def words (state : ScanState) : WordState :=
  match state.mode with
  | .lineStart _ => .start
  | .word => ⟨state.text, none⟩
  | .hash => ⟨"#", none⟩
  | .comment => .start
  | .group escaping => ⟨state.text, some escaping⟩

/-- What a step of the scanner completes is what the splitter completes
up to the same point. -/
def Agrees (words : WordState) (c : Char) (cs : List Char) (result : Option Token × ScanState) :
    Prop :=
  words.scan (c :: cs)
    = Token.texts (Token.content result.1.toList) ++ result.2.words.scan cs

/-- A word and a group hold the text under way. -/
theorem texts_token? (state : ScanState) {kind : TokenKind} (hkind : kind ≠ .emptyLine)
    (span : Option Bool) :
    Token.texts (Token.content (state.token? kind).toList)
      = (⟨state.text, span⟩ : WordState).finished := by
  have hcontent : ∀ token ∈ (state.token? kind).toList, (!token.isEmptyLine) = true := by
    intro token htoken
    rw [isEmptyLine_of_token?_ne hkind token (Option.mem_toList.1 htoken)]
    rfl
  rw [Token.content, List.filter_eq_self.2 hcontent, token?, WordState.finished]
  cases state.text.isEmpty <;> rfl

/-- A run of blank lines is no content. -/
theorem texts_emptyLine (state : ScanState) :
    Token.texts (Token.content (state.token? .emptyLine).toList) = [] := by
  rw [token?]
  split <;> rfl

theorem text_add_eq_foldl (state : ScanState) (cs : List Char) :
    (state.add cs).text = cs.foldl String.push state.text := by
  induction cs generalizing state with
  | nil => rfl
  | cons c cs ih =>
    show ((state.push c).add cs).text = cs.foldl String.push (state.text.push c)
    exact ih (state.push c)

/-! ### One character -/

theorem agrees_word (state : ScanState) {c : Char} (hblank : isBlank c → isIndent c ∨ isBreak c)
    (cs : List Char) : Agrees ⟨state.text, none⟩ c cs (state.word c) := by
  have hkind : TokenKind.word ≠ .emptyLine := by decide
  have hword := state.texts_token? hkind none
  simp only [Agrees, WordState.scan, WordState.step, ScanState.word]
  by_cases hbreak : isBreak c
  · simp only [hbreak, isBlank_of_isBreak hbreak, if_true]
    rw [hword]
    rfl
  by_cases hindent : isIndent c
  · simp only [hbreak, hindent, isBlank_of_isIndent hindent, Bool.false_eq_true, if_true, if_false]
    rw [hword]
    rfl
  have hnone : ¬ isBlank c := fun h => (hblank h).elim hindent hbreak
  simp only [hbreak, hindent, hnone, Bool.false_eq_true, if_false]
  by_cases hpercent : c = '%'
  · rw [if_pos hpercent, if_pos hpercent]
    rfl
  rw [if_neg hpercent, if_neg hpercent]
  by_cases hhash : c = '#' ∧ state.text.isEmpty
  · -- The scanner holds the `#` back until it knows what comes after it.
    rw [if_pos hhash, String.isEmpty_iff.1 hhash.2, hhash.1]
    rfl
  · rw [if_neg hhash]
    rfl

theorem agrees_lineStart (state : ScanState) (afterReturn : Bool) {c : Char}
    (hblank : isBlank c → isIndent c ∨ isBreak c) (cs : List Char) :
    Agrees .start c cs (state.lineStart afterReturn c) := by
  by_cases hlayout : isIndent c ∨ isBreak c
  · have hspace : isBlank c := hlayout.elim isBlank_of_isIndent isBlank_of_isBreak
    -- The scanner stays before the first text, the splitter between words.
    have hstay : (state.lineStart afterReturn c).1 = none
        ∧ (state.lineStart afterReturn c).2.words = .start := by
      rw [ScanState.lineStart]
      split
      · exact ⟨rfl, rfl⟩
      split
      · exact ⟨rfl, rfl⟩
      rw [if_pos (hlayout.resolve_left ‹_›)]
      exact ⟨rfl, rfl⟩
    rw [Agrees, hstay.1, hstay.2, WordState.scan, WordState.step]
    simp only [WordState.start, hspace, if_true]
    rfl
  · rw [not_or] at hlayout
    have hfeed : ¬ (c = '\n' ∧ afterReturn) := by
      rintro ⟨rfl, -⟩
      exact hlayout.2 rfl
    have hword := state.cleared.agrees_word hblank cs
    rw [Agrees, word_eq_none hlayout.1 hlayout.2] at hword
    rw [Agrees, ScanState.lineStart, if_neg hlayout.1, if_neg hfeed, if_neg hlayout.2,
      state.texts_emptyLine]
    exact hword

theorem agrees_group (state : ScanState) (escaping : Bool) {c : Char} {cs : List Char}
    (hclosed : escaping = false → c = '%' → cs.head?.all isBlank) :
    Agrees ⟨state.text, some escaping⟩ c cs (state.group escaping c) := by
  rw [Agrees, WordState.scan, WordState.step, ScanState.group]
  cases hread : Span.read escaping c with
  | add text =>
    have htext : (((state.add text).count c).enter (.group false)).text
        = text.foldl String.push state.text := by
      rw [← text_add_eq_foldl]
      exact text_count _ c
    simp only [ScanState.words, htext, hread]
    rfl
  | escape =>
    simp only [hread]
    rfl
  | close =>
    obtain ⟨hescaping, hpercent⟩ := Span.eq_of_read_close hread
    simp only [hread]
    have hkind : TokenKind.group ≠ .emptyLine := by decide
    show (⟨state.text, none⟩ : WordState).scan cs = _
    rw [WordState.scan_ended _ (hclosed hescaping hpercent), state.texts_token? hkind none]
    rfl

/-- A step in a plainly spaced text. -/
theorem agrees_step {state : ScanState} (htidy : state.Tidy) (hplace : state.place ≠ .comment)
    {c : Char} {cs : List Char} (h : PlainlySpaced state.place (c :: cs)) :
    Agrees state.words c cs (state.step c) := by
  obtain ⟨hblank, hclosed, -⟩ := h
  have hspace : state.place.inSpan = false → isBlank c → isIndent c ∨ isBreak c := by
    intro hspan hc
    rcases hblank hc with hin | ⟨-, hlayout⟩
    · rw [hspan] at hin
      cases hin
    · exact hlayout
  rw [ScanState.step, words]
  rw [← inGroup_eq_inSpan, inGroup] at hspace
  cases hmode : state.mode with
  | lineStart afterReturn =>
    rw [hmode] at hspace
    exact state.agrees_lineStart afterReturn (hspace rfl) cs
  | word =>
    rw [hmode] at hspace
    exact state.agrees_word (hspace rfl) cs
  | hash =>
    rw [hmode] at hspace
    rw [place, hmode] at hblank
    have hc : ¬ isBlank c := by
      intro hc
      rcases hblank hc with hspan | ⟨hne, -⟩
      · cases hspan
      · exact hne rfl
    have htext : (state.push '#').text = "#" := by
      show state.text.push '#' = "#"
      rw [String.isEmpty_iff.1 (htidy (.inl hmode))]
      rfl
    have hword := (state.push '#').agrees_word (hspace rfl) cs
    rw [htext] at hword
    have hbreak : ¬ isBreak c := fun hbreak => hc (isBlank_of_isBreak hbreak)
    simp only [ScanState.hash]
    rw [if_neg hbreak, if_neg hc]
    exact hword
  | comment =>
    rw [place, hmode] at hplace
    exact absurd rfl hplace
  | group escaping =>
    refine state.agrees_group escaping fun hescaping => hclosed ?_
    rw [place, hmode, hescaping]

/-! ### The whole text -/

/-- The last word. -/
theorem agrees_finish {state : ScanState} (htidy : state.Tidy) (hplace : state.place ≠ .hash) :
    Token.texts (Token.content state.finish.toList) = state.words.scan [] := by
  rw [finish, words]
  cases hmode : state.mode with
  | lineStart afterReturn => exact state.texts_emptyLine
  | word =>
    have hword : TokenKind.word ≠ .emptyLine := by decide
    exact state.texts_token? hword none
  | hash =>
    rw [place, hmode] at hplace
    exact absurd rfl hplace
  | comment =>
    simp only [token?, htidy (.inr hmode), if_true]
    rfl
  | group escaping =>
    have hgroup : TokenKind.group ≠ .emptyLine := by decide
    simp only
    rw [texts_token? _ hgroup (some escaping), text_add_eq_foldl]
    rfl

/-- What the two find from some point on. -/
theorem texts_scan {state : ScanState} (htidy : state.Tidy) (hplace : state.place ≠ .comment)
    {cs : List Char} (h : PlainlySpaced state.place cs) :
    Token.texts (Token.content (state.scan cs)) = state.words.scan cs := by
  induction cs generalizing state with
  | nil => exact agrees_finish htidy h
  | cons c cs ih =>
    obtain ⟨hnext, htidy'⟩ := htidy.step c
    have hhash : state.place = .hash → ¬ isBlank c := by
      intro hstate hc
      rcases h.1 hc with hspan | ⟨hne, -⟩
      · rw [hstate] at hspan
        cases hspan
      · exact hne hstate
    have hrest := ih htidy' (hnext ▸ Place.next_ne_comment hplace hhash) (hnext ▸ h.2.2)
    rw [agrees_step htidy hplace h, ← hrest, scan]
    simp only [Token.texts, Token.content, List.filter_append, List.map_append]

end ScanState

/-- The words and groups of a plainly spaced text are its words. -/
theorem texts_tokenize_eq_splitWords {text : String} (h : PlainlySpaced .gap text.toList) :
    Token.texts (Token.content (tokenize text)) = splitWords text :=
  ScanState.texts_scan ScanState.tidy_initial (fun hcomment => by cases hcomment) h

/-- An escaped percent sign, a span that ends a word, an empty span, a
`#` that begins a word, and an open span with a backslash at its end. -/
theorem texts_tokenize_escapes :
    PlainlySpaced .gap "%a\\%b% c%d  e%\r\n\r\n%% #x\t%\\y #\n\\".toList
      ∧ Token.texts (Token.content (tokenize "%a\\%b% c%d  e%\r\n\r\n%% #x\t%\\y #\n\\"))
        = ["a%b", "cd  e", "#x", "\\y #\n\\"] := by
  have hspaced : PlainlySpaced .gap "%a\\%b% c%d  e%\r\n\r\n%% #x\t%\\y #\n\\".toList := by
    decide +kernel
  refine ⟨hspaced, ?_⟩
  rw [texts_tokenize_eq_splitWords hspaced]
  decide +kernel

end EventRules

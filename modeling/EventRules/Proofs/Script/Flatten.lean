import EventRules.Proofs.Script.Lines
import EventRules.Proofs.Text.Flat

/-!
# `EventRules.Proofs.Script.Flatten`: spans without line breaks

`flattenGroups` puts a space in the place of each line break inside a
span. The scanner finds the same tokens in the flattened script, with
flat texts in the groups. What differs is the lines: after a group with
line feeds in it, the tokens of the script stand that many lines further
down than those of the flattened one.

`Drift` relates the two lists of tokens. Its index is the distance
between the lines of the first two tokens, which grows by the line feeds
of each group. `tokenize_flattenGroups` says that it relates the tokens
of a script and of the flattened one, from the distance 0.

Outside spans the two scans are `Ahead` of each other by the distance so
far. `Within` relates them inside a span, where the distance is already
growing while the token is not complete.
-/

set_option autoImplicit false

namespace EventRules

open Text (flat flatChar isBreak)

/-! ### Flattened scripts -/

/-- The characters with a space in the place of each line break inside a
span. -/
def ScanState.flatten (state : ScanState) : List Char → List Char
  | [] => []
  | c :: cs =>
    (if state.inGroup then flatChar c else c) :: flatten (state.step c).2 cs

/-- The script with a space in the place of each line break inside a
span. -/
def flattenGroups (script : String) : String :=
  String.ofList (ScanState.initial.flatten script.toList)

/-- The number of line feeds in a text. -/
def lineFeeds (text : String) : Nat :=
  text.toList.count '\n'

theorem lineFeeds_append (first second : String) :
    lineFeeds (first ++ second) = lineFeeds first + lineFeeds second := by
  rw [lineFeeds, String.toList_append, List.count_append]
  rfl

/-- There is no line feed in a flat text. -/
theorem lineFeeds_of_flat {text : String} (h : flat text = text) : lineFeeds text = 0 := by
  rw [lineFeeds, List.count_eq_zero]
  intro hmem
  rw [← h, Text.toList_flat, List.mem_map] at hmem
  obtain ⟨c, -, hc⟩ := hmem
  have hbreak : isBreak (flatChar c) = true := by
    rw [hc]
    decide
  rw [Text.isBreak_flatChar] at hbreak
  cases hbreak

namespace Token

/-- The line feeds inside the token, if it is a group. -/
def lineFeeds (token : Token) : Nat :=
  match token.kind with
  | .group => EventRules.lineFeeds token.text
  | .word | .emptyLine => 0

/-- The line that the token ends on. -/
def lastLine (token : Token) : Nat :=
  token.line + token.lineFeeds

/-- The second token is the first one when groups are flat. -/
structure Flattened (token other : Token) : Prop where
  kind_eq : other.kind = token.kind
  text_eq : token.kind ≠ .group → other.text = token.text
  flat_eq : token.kind ≠ .emptyLine → other.text = flat token.text

end Token

/-- The second list is the first one when groups are flat. The lines of
the first two tokens are a distance apart, and the line feeds of each
group add to it. -/
inductive Drift : Nat → List Token → List Token → Prop where
  | nil {drift : Nat} : Drift drift [] []
  | cons {drift : Nat} {token other : Token} {tokens others : List Token} :
      token.Flattened other →
      token.line = other.line + drift →
      Drift (drift + token.lineFeeds) tokens others →
      Drift drift (token :: tokens) (other :: others)

/-! ### Words without line breaks -/

namespace ScanState

/-- The text under way has no line break, unless it is a run of blank
lines. -/
def Plain (state : ScanState) : Prop :=
  flat state.text = state.text ∨ ∃ afterReturn, state.mode = .lineStart afterReturn

theorem Plain.flat_eq {state : ScanState} (h : state.Plain)
    (hmode : ∀ afterReturn, state.mode ≠ .lineStart afterReturn) :
    flat state.text = state.text := by
  rcases h with hflat | ⟨afterReturn, hstart⟩
  · exact hflat
  · exact absurd hstart (hmode afterReturn)

theorem flat_push {text : String} (h : flat text = text) {c : Char} (hc : ¬ isBreak c) :
    flat (text.push c) = text.push c := by
  rw [← String.toList_inj, Text.toList_flat, String.toList_push, List.map_append,
    ← Text.toList_flat, h, List.map_singleton, Text.flatChar_of_not_isBreak hc]

/-- A token that is no group: a word without line breaks or a run of
blank lines. -/
def PlainToken (token : Token) : Prop :=
  token.kind = .emptyLine ∨ token.kind = .word ∧ flat token.text = token.text

/-- What a step outside spans may come to. -/
structure StaysPlain (result : Option Token × ScanState) : Prop where
  token : ∀ token ∈ result.1, PlainToken token
  state : result.2.Plain

namespace StaysPlain

variable {state : ScanState}

theorem none {next : ScanState} (h : next.Plain) : StaysPlain (none, next) :=
  ⟨fun _ htoken => (Option.not_mem_none _ htoken).elim, h⟩

theorem token?_word (h : flat state.text = state.text) :
    ∀ token ∈ state.token? .word, PlainToken token := by
  intro token htoken
  obtain ⟨-, rfl⟩ := token?_eq_some_iff.1 htoken
  exact .inr ⟨rfl, h⟩

theorem token?_emptyLine : ∀ token ∈ state.token? .emptyLine, PlainToken token := by
  intro token htoken
  obtain ⟨-, rfl⟩ := token?_eq_some_iff.1 htoken
  exact .inl rfl

theorem word (h : flat state.text = state.text) (c : Char) : StaysPlain (state.word c) := by
  rw [ScanState.word]
  by_cases hbreak : isBreak c
  · rw [if_pos hbreak]
    exact ⟨token?_word h, .inr ⟨_, rfl⟩⟩
  rw [if_neg hbreak]
  split
  · exact ⟨token?_word h, .inl rfl⟩
  split
  · exact none (.inl h)
  split
  · exact none (.inl h)
  · exact none (.inl (flat_push h hbreak))

theorem lineStart (afterReturn : Bool) (c : Char) :
    StaysPlain (state.lineStart afterReturn c) := by
  rw [ScanState.lineStart]
  split
  · exact none (.inr ⟨_, rfl⟩)
  split
  · exact none (.inr ⟨_, rfl⟩)
  split
  · exact none (.inr ⟨_, rfl⟩)
  · have hcleared : flat state.cleared.text = state.cleared.text := rfl
    exact ⟨token?_emptyLine, (word hcleared c).state⟩

theorem hash (h : flat state.text = state.text) (c : Char) : StaysPlain (state.hash c) := by
  rw [ScanState.hash]
  split
  · exact word h c
  split
  · exact none (.inl h)
  · have hhash : flat (state.push '#').text = (state.push '#').text := flat_push h (by decide)
    exact word hhash c

theorem comment (h : flat state.text = state.text) (c : Char) :
    StaysPlain (state.comment c) := by
  rw [ScanState.comment]
  split
  · exact word h c
  · exact none (.inl h)

/-- Outside spans no line break comes into a word. -/
theorem step (hgroup : state.inGroup = false) (h : state.Plain) (c : Char) :
    StaysPlain (state.step c) := by
  rw [ScanState.step]
  cases hmode : state.mode with
  | lineStart afterReturn => exact lineStart afterReturn c
  | group escaping =>
    -- This is no step outside spans.
    rw [inGroup, hmode] at hgroup
    cases hgroup
  | word => exact word (h.flat_eq (by simp [hmode])) c
  | hash => exact hash (h.flat_eq (by simp [hmode])) c
  | comment => exact comment (h.flat_eq (by simp [hmode])) c

end StaysPlain

/-! ### Both scans -/

/-- The scans of a script and of the flattened one inside a span. The
distance is that at the token under way. The line feeds in its text have
been counted in the script alone. -/
structure Within (drift : Nat) (escaping : Bool) (state other : ScanState) : Prop where
  mode_eq : state.mode = .group escaping
  other_mode : other.mode = .group escaping
  text_eq : other.text = flat state.text
  line_eq : state.line = other.line + drift + lineFeeds state.text
  due_eq : state.due = other.due + drift

/-- The scans of a script and of the flattened one. -/
inductive Parallel (drift : Nat) (state other : ScanState) : Prop where
  | outside (hgroup : state.inGroup = false) (hplain : state.Plain)
      (hahead : Ahead drift state other)
  | inside {escaping : Bool} (hwithin : Within drift escaping state other)

theorem Ahead.due_eq {drift : Nat} {state other : ScanState} (h : Ahead drift state other) :
    state.due = other.due + drift := by
  simp only [due]
  rw [← h.text_eq]
  cases hempty : state.text.isEmpty with
  | true => exact h.line_eq
  | false => exact h.start_eq hempty

/-- Scans with the same text under way. A span that has just begun has
no line feed in it yet. -/
theorem Parallel.of_ahead {drift : Nat} {state other : ScanState} (hplain : state.Plain)
    (h : Ahead drift state other) : Parallel drift state other := by
  cases hmode : state.mode with
  | group escaping =>
    have hflat : flat state.text = state.text := hplain.flat_eq (by simp [hmode])
    refine .inside ⟨hmode, h.mode_eq.symm.trans hmode, ?_, ?_, h.due_eq⟩
    · rw [hflat, h.text_eq]
    · rw [lineFeeds_of_flat hflat, h.line_eq]
      rfl
  | _ =>
    refine .outside ?_ hplain h
    rw [inGroup, hmode]

/-- What a step of both scans may come to. -/
inductive Keeps (drift : Nat) :
    Option Token × ScanState → Option Token × ScanState → Prop where
  | none {state other : ScanState} :
      Parallel drift state other → Keeps drift (none, state) (none, other)
  | some {token found : Token} {state other : ScanState} :
      token.Flattened found →
      token.line = found.line + drift →
      Parallel (drift + token.lineFeeds) state other →
      Keeps drift (some token, state) (some found, other)

/-- A plain token further down is the same token when groups are
flat. -/
theorem flattened_of_plain {drift : Nat} {token : Token} (h : PlainToken (token.shift drift)) :
    (token.shift drift).Flattened token := by
  refine ⟨rfl, fun _ => rfl, ?_⟩
  intro hkind
  rcases h with hempty | ⟨-, hflat⟩
  · exact absurd hempty hkind
  · exact hflat.symm

theorem lineFeeds_of_plain {token : Token} (h : PlainToken token) : token.lineFeeds = 0 := by
  rcases h with hkind | ⟨hkind, -⟩ <;> rw [Token.lineFeeds, hkind]

/-- A step outside spans. The two scans read the same character. -/
theorem keeps_outside {drift : Nat} {state other : ScanState} (hgroup : state.inGroup = false)
    (hplain : state.Plain) (h : Ahead drift state other) (c : Char) :
    Keeps drift (state.step c) (other.step c) := by
  obtain ⟨htoken, hnext⟩ := h.step c
  obtain ⟨hword, hstays⟩ := StaysPlain.step hgroup hplain c
  generalize state.step c = result at *
  generalize other.step c = found at *
  obtain ⟨token, next⟩ := result
  obtain ⟨found, next'⟩ := found
  -- Both scans complete a token or neither does.
  cases found with
  | none =>
    cases htoken
    exact .none (.of_ahead hstays hnext)
  | some found =>
    cases htoken
    have hplain : PlainToken (found.shift drift) := hword _ rfl
    -- There is no line feed in it, so the distance stays the same.
    refine .some (flattened_of_plain hplain) rfl ?_
    rw [lineFeeds_of_plain hplain]
    exact .of_ahead hstays hnext

/-- What a character in a span does, when it is flat. -/
theorem read_flatChar (escaping : Bool) (c : Char) :
    Text.Span.read escaping (flatChar c)
      = match Text.Span.read escaping c with
        | .add cs => .add (cs.map flatChar)
        | .escape => .escape
        | .close => .close := by
  by_cases hbreak : isBreak c
  · rcases Text.eq_of_isBreak hbreak with rfl | rfl <;> cases escaping <;> decide
  · rw [Text.flatChar_of_not_isBreak hbreak]
    -- A character adds itself and at most a backslash before it.
    have hmap : ∀ cs : List Char, (∀ d ∈ cs, d = c ∨ d = '\\') → cs.map flatChar = cs := by
      intro cs hcs
      refine (List.map_congr_left fun d hd => ?_).trans (List.map_id cs)
      rcases hcs d hd with rfl | rfl
      · exact Text.flatChar_of_not_isBreak hbreak
      · decide
    rw [Text.Span.read]
    split
    · split <;> simp [hmap]
    · split
      · rfl
      split
      · rfl
      · simp [hmap]

/-- What a character in a span adds has the character's line feed. -/
theorem count_of_read {escaping : Bool} {c : Char} {cs : List Char}
    (h : Text.Span.read escaping c = .add cs) :
    cs ≠ [] ∧ cs.count '\n' = [c].count '\n' := by
  rw [Text.Span.read] at h
  split at h
  · split at h <;> cases h <;> simp
  · split at h
    · cases h
    split at h
    · cases h
    · cases h
      simp

namespace Within

variable {drift : Nat} {escaping : Bool} {state other : ScanState}

theorem enter (h : Within drift escaping state other) (next : Bool) :
    Within drift next (state.enter (.group next)) (other.enter (.group next)) :=
  ⟨rfl, rfl, h.text_eq, h.line_eq, h.due_eq⟩

/-- Characters that are added to a span. Their line feed is counted in
the script, and is a space in the flattened one. -/
theorem add (h : Within drift escaping state other) {c : Char} {cs : List Char} (hne : cs ≠ [])
    (hcount : cs.count '\n' = [c].count '\n') :
    Within drift false (((state.add cs).count c).enter (.group false))
      (((other.add (cs.map flatChar)).count (flatChar c)).enter (.group false)) := by
  have htext : (other.add (cs.map flatChar)).text = flat (state.add cs).text := by
    rw [text_add, text_add, h.text_eq, Text.flat_append, Text.flat_ofList]
  have hempty : (state.add cs).text.isEmpty = false := by
    rw [String.isEmpty_eq_false_iff, text_add]
    intro heq
    have hnil := congrArg String.toList heq
    rw [String.toList_append, String.toList_ofList] at hnil
    exact hne (List.append_eq_nil_iff.1 hnil).2
  -- Both texts have begun, so what is due stays where it is.
  have hempty' : (other.add (cs.map flatChar)).text.isEmpty = false := by
    rw [htext, Text.isEmpty_flat]
    exact hempty
  have hspace : [flatChar c].count '\n' = 0 := by
    rw [List.count_eq_zero, List.mem_singleton]
    intro hc
    have hbreak := Text.isBreak_flatChar c
    rw [← hc] at hbreak
    cases hbreak
  refine ⟨rfl, rfl, ?_, ?_, ?_⟩
  · show ((other.add _).count _).text = flat ((state.add cs).count c).text
    rw [text_count, text_count, htext]
  · show ((state.add cs).count c).line
      = ((other.add _).count _).line + drift + lineFeeds ((state.add cs).count c).text
    rw [line_count, line_count, line_add, line_add, text_count, text_add, lineFeeds_append,
      h.line_eq, hspace, ← hcount]
    simp only [lineFeeds, String.toList_ofList]
    omega
  · show ((state.add cs).count c).due = ((other.add _).count _).due + drift
    rw [due_count_of_text hempty, due_count_of_text hempty', due_add, due_add, h.due_eq]

/-- The groups that two spans make: none if they have no text, or else
the group and the flat one. -/
theorem token? (htext : other.text = flat state.text) (hdue : state.due = other.due + drift) :
    state.token? .group = none ∧ other.token? .group = none ∧ lineFeeds state.text = 0
      ∨ ∃ token found, state.token? .group = some token ∧ other.token? .group = some found
          ∧ token.Flattened found ∧ token.line = found.line + drift
          ∧ token.lineFeeds = lineFeeds state.text := by
  have hempty : other.text.isEmpty = state.text.isEmpty := by
    rw [htext, Text.isEmpty_flat]
  simp only [ScanState.token?]
  simp only [due] at hdue
  rw [hempty] at hdue ⊢
  cases hstate : state.text.isEmpty with
  | true =>
    rw [String.isEmpty_iff] at hstate
    refine .inl ⟨rfl, rfl, ?_⟩
    rw [hstate]
    rfl
  | false =>
    rw [hstate] at hdue
    refine .inr ⟨_, _, rfl, rfl, ⟨rfl, ?_, fun _ => htext⟩, hdue, rfl⟩
    intro hkind
    exact absurd rfl hkind

/-- The end of a span. The distance of what follows has grown by the
line feeds in it. -/
theorem close (h : Within drift escaping state other) :
    Keeps drift (state.token? .group, state.cleared.enter .word)
      (other.token? .group, other.cleared.enter .word) := by
  have hnext : Parallel (drift + lineFeeds state.text) (state.cleared.enter .word)
      (other.cleared.enter .word) := by
    refine .of_ahead (.inl rfl) ⟨rfl, rfl, ?_, fun hempty => by cases hempty⟩
    show state.line = other.line + (drift + lineFeeds state.text)
    rw [h.line_eq]
    omega
  rcases token? h.text_eq h.due_eq with
    ⟨htoken, hfound, hfeeds⟩ | ⟨token, found, htoken, hfound, hflat, hline, hfeeds⟩
  · -- A span without text makes no token.
    rw [htoken, hfound]
    rw [hfeeds] at hnext
    exact .none hnext
  · rw [htoken, hfound]
    rw [← hfeeds] at hnext
    exact .some hflat hline hnext

/-- A step inside a span. The second scan reads the flat character. -/
theorem step (h : Within drift escaping state other) (c : Char) :
    Keeps drift (state.step c) (other.step (flatChar c)) := by
  rw [ScanState.step, ScanState.step, h.mode_eq, h.other_mode]
  simp only [ScanState.group, read_flatChar]
  cases hread : Text.Span.read escaping c with
  | add cs =>
    obtain ⟨hne, hcount⟩ := count_of_read hread
    exact .none (.inside (h.add hne hcount))
  | escape => exact .none (.inside (h.enter true))
  | close => exact h.close

/-- The end of the script inside a span. -/
theorem finish (h : Within drift escaping state other) :
    Drift drift state.finish.toList other.finish.toList := by
  -- What an open span still adds is a backslash at most.
  have hunfinished : (Text.Span.unfinished escaping).map flatChar
      = Text.Span.unfinished escaping := by
    cases escaping <;> decide
  have htext : (other.add (Text.Span.unfinished escaping)).text
      = flat (state.add (Text.Span.unfinished escaping)).text := by
    rw [text_add, text_add, Text.flat_append, Text.flat_ofList, hunfinished, h.text_eq]
  have hdue : (state.add (Text.Span.unfinished escaping)).due
      = (other.add (Text.Span.unfinished escaping)).due + drift := by
    rw [due_add, due_add, h.due_eq]
  rw [ScanState.finish, ScanState.finish, h.mode_eq, h.other_mode]
  rcases token? htext hdue with
    ⟨htoken, hfound, -⟩ | ⟨token, found, htoken, hfound, hflat, hline, -⟩
  · simp only [htoken, hfound]
    exact .nil
  · simp only [htoken, hfound]
    exact .cons hflat hline .nil

end Within

/-- The end of the script outside spans. -/
theorem finish_outside {drift : Nat} {state other : ScanState} (hgroup : state.inGroup = false)
    (hplain : state.Plain) (h : Ahead drift state other) :
    Drift drift state.finish.toList other.finish.toList := by
  have hword : ∀ token ∈ state.finish, PlainToken token := by
    rw [ScanState.finish]
    cases hmode : state.mode with
    | lineStart afterReturn => exact StaysPlain.token?_emptyLine
    | word => exact StaysPlain.token?_word (hplain.flat_eq (by simp [hmode]))
    | hash => exact StaysPlain.token?_word (hplain.flat_eq (by simp [hmode]))
    | comment => exact StaysPlain.token?_word (hplain.flat_eq (by simp [hmode]))
    | group escaping =>
      rw [inGroup, hmode] at hgroup
      cases hgroup
  rw [h.finish] at hword ⊢
  cases hfound : other.finish with
  | none => exact .nil
  | some found =>
    have hplain : PlainToken (found.shift drift) := hword _ (by rw [hfound]; rfl)
    exact .cons (flattened_of_plain hplain) rfl .nil

/-- The tokens of a script and of the flattened one. -/
theorem Parallel.scan {drift : Nat} {state other : ScanState} (h : Parallel drift state other)
    (cs : List Char) : Drift drift (state.scan cs) (other.scan (state.flatten cs)) := by
  -- The distance grows from group to group, so the induction is for
  -- every distance.
  induction cs generalizing drift state other with
  | nil =>
    rw [flatten, ScanState.scan, ScanState.scan]
    cases h with
    | outside hgroup hplain hahead => exact finish_outside hgroup hplain hahead
    | inside hwithin => exact hwithin.finish
  | cons c cs ih =>
    have hstep : Keeps drift (state.step c)
        (other.step (if state.inGroup then flatChar c else c)) := by
      cases h with
      | outside hgroup hplain hahead =>
        rw [hgroup]
        exact keeps_outside hgroup hplain hahead c
      | inside hwithin =>
        have hgroup : state.inGroup = true := by
          rw [inGroup, hwithin.mode_eq]
        rw [hgroup]
        exact hwithin.step c
    rw [flatten, ScanState.scan, ScanState.scan]
    generalize state.step c = result at hstep ⊢
    generalize other.step (if state.inGroup then flatChar c else c) = found at hstep ⊢
    cases hstep with
    | none hnext => exact ih hnext
    | some hflat hline hnext => exact .cons hflat hline (ih hnext)

end ScanState

/-- The tokens of a script and of the flattened one. Before the first
group with a line feed they stand on the same lines. -/
theorem tokenize_flattenGroups (script : String) :
    Drift 0 (tokenize script) (tokenize (flattenGroups script)) := by
  have hinitial : ScanState.Parallel 0 .initial .initial :=
    .outside rfl (.inr ⟨_, rfl⟩) ⟨rfl, rfl, rfl, fun _ => rfl⟩
  rw [tokenize, tokenize, flattenGroups, String.toList_ofList]
  exact hinitial.scan script.toList

end EventRules

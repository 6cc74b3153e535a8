import EventRules.Proofs.Script.LineStarts
import EventRules.Proofs.Script.Written

/-!
# `EventRules.Proofs.Script.LineByLine`: what single lines make

Consequences of reading a script line by line:

* `LogicalLine.tokens_of_comment`: a line with nothing but a comment makes
  no token, and is not blank.
* `Reads.exists_isEmptyLine_iff`: among the tokens of lines there is an
  empty line exactly if one of the lines is blank. With
  `Reads.exists_append` this says what stands between the tokens of two
  lines.
* `tokenize_open_span`: a span that nothing closes takes the rest of the
  script into one group. `tokenize_open_span_empty` is the exception: a
  span without text makes no group, whether it is closed or not.

`LineByLine` puts all of it together, and `tokenize_lineByLine` says that
it holds of every script.
-/

set_option autoImplicit false

namespace EventRules

open Text

/-! ### Comments -/

/-- A comment that a line break does not cut off goes on to its end. -/
theorem commentText_of_unbroken {comment : List Char} (hblank : ∀ c ∈ comment.head?, Text.isBlank c)
    (h : Unbroken .hash comment) : CommentText comment := by
  have hrest : ∀ cs, Unbroken .comment cs → ∀ c ∈ cs, ¬ isBreak c := by
    intro cs
    induction cs with
    | nil => exact fun _ _ hc => absurd hc List.not_mem_nil
    | cons c cs ih =>
      intro hcs
      have hbreak : ¬ isBreak c := fun hbreak => Bool.false_ne_true (hcs.1 hbreak)
      have hnext : Place.comment.next c = .comment := if_neg hbreak
      exact List.forall_mem_cons.2 ⟨hbreak, ih (hnext ▸ hcs.2)⟩
  refine ⟨hblank, ?_⟩
  cases comment with
  | nil => exact fun _ hc => absurd hc List.not_mem_nil
  | cons c comment =>
    -- The blank after the `#` begins the comment.
    have hbreak : ¬ isBreak c := fun hbreak => Bool.false_ne_true (h.1 hbreak)
    have hnext : Place.hash.next c = .comment := by
      simp only [Place.next, hblank c rfl, hbreak, Bool.not_false, Bool.and_self, if_true]
    exact List.forall_mem_cons.2 ⟨hbreak, hrest comment (hnext ▸ h.2)⟩

/-- A line with nothing but a comment makes no token and is not blank. -/
theorem LogicalLine.tokens_of_comment {script : String} {line : LogicalLine}
    (h : line ∈ logicalLines script) {indent comment : List Char}
    (hcontent : line.content = indent ++ '#' :: comment) (hindent : ∀ c ∈ indent, isIndent c)
    (hcomment : ∀ c ∈ comment.head?, Text.isBlank c) : line.isBlank = false ∧ line.tokens = [] := by
  have hunbroken := unbroken_of_mem h
  rw [hcontent] at hunbroken
  have htext := hunbroken.of_append
  rw [Place.gap_after_indent hindent] at htext
  constructor
  · have hnot : line.content.all isIndent = false := by
      rw [hcontent, List.all_append, List.all_cons]
      exact Bool.and_false _
    rw [isBlank, hnot, Bool.and_false]
  · rw [line.tokens_of_text hcontent hindent (by decide) (by decide)]
    have hend : ∀ c ∈ ([] : List Char).head?, isBreak c := fun _ hc => by cases hc
    have hscan := ScanState.initial.scan_fresh_comment
      (commentText_of_unbroken hcomment htext.2) hend
    rw [List.append_nil] at hscan
    rw [hscan]
    rfl

/-! ### Empty lines between tokens -/

namespace Reads

variable {before after : List LogicalLine} {line : LogicalLine} {tokens : List Token}

/-- The tokens of a line that is not blank stand between those of the
lines before it and of those after it. -/
theorem exists_append (hline : line.isBlank = false) (h : Reads (before ++ line :: after) tokens) :
    ∃ first second, tokens = first ++ (line.tokens ++ second) ∧ Reads before first
      ∧ Reads after second := by
  generalize hlines : before ++ line :: after = lines at h
  induction h generalizing before with
  | nil => cases before <;> cases hlines
  | @line other lines tokens hother hrest ih =>
    cases before with
    | nil =>
      cases hlines
      exact ⟨[], tokens, rfl, .nil, hrest⟩
    | cons _ before =>
      cases hlines
      obtain ⟨first, second, rfl, hfirst, hsecond⟩ := ih rfl
      exact ⟨other.tokens ++ first, second, (List.append_assoc _ _ _).symm, .line hother hfirst,
        hsecond⟩
  | @run run lines tokens hne hrun hhead hrest ih =>
    -- The line is not blank, so it stands after the run.
    have hafter : ∃ middle, before = run ++ middle ∧ middle ++ line :: after = lines := by
      rcases List.append_eq_append_iff.1 hlines with
        ⟨extra, hextra, hrest⟩ | ⟨middle, hbefore, hmiddle⟩
      · cases extra with
        | nil => exact ⟨[], by rw [hextra]; simp, hrest⟩
        | cons other extra =>
          cases hrest
          have hmem : line ∈ run := by
            rw [hextra]
            exact List.mem_append_right _ List.mem_cons_self
          rw [hrun line hmem] at hline
          cases hline
      · exact ⟨middle, hbefore, hmiddle.symm⟩
    obtain ⟨middle, rfl, hmiddle⟩ := hafter
    obtain ⟨first, second, rfl, hfirst, hsecond⟩ := ih hmiddle
    refine ⟨.ofBlankLines run :: first, second, rfl, .run hne hrun ?_ hfirst, hsecond⟩
    intro other hother
    cases middle with
    | nil => cases hother
    | cons _ middle =>
      refine hhead other ?_
      rw [← hmiddle]
      exact hother

/-- An empty line stands among the tokens of lines exactly if one of the
lines is blank. -/
theorem exists_isEmptyLine_iff {lines : List LogicalLine} (h : Reads lines tokens)
    (hwords : ∀ line ∈ lines, ∀ token ∈ line.tokens, token.isEmptyLine = false) :
    (∃ token ∈ tokens, token.isEmptyLine) ↔ ∃ line ∈ lines, line.isBlank := by
  induction h with
  | nil => simp
  | @line line lines tokens hline hrest ih =>
    rw [List.forall_mem_cons] at hwords
    have hnone : ¬ ∃ token ∈ line.tokens, token.isEmptyLine := by
      rintro ⟨token, hmem, hempty⟩
      rw [hwords.1 token hmem] at hempty
      cases hempty
    have hother : (∃ other ∈ line :: lines, other.isBlank) ↔ ∃ other ∈ lines, other.isBlank := by
      simp [hline]
    rw [hother, ← ih hwords.2]
    constructor
    · rintro ⟨token, hmem, hempty⟩
      rcases List.mem_append.1 hmem with hmem | hmem
      · exact absurd ⟨token, hmem, hempty⟩ hnone
      · exact ⟨token, hmem, hempty⟩
    · rintro ⟨token, hmem, hempty⟩
      exact ⟨token, List.mem_append_right _ hmem, hempty⟩
  | @run run lines tokens hne hrun hhead hrest ih =>
    obtain ⟨line, hmem⟩ := List.exists_mem_of_ne_nil run hne
    constructor
    · intro _
      exact ⟨line, List.mem_append_left _ hmem, hrun line hmem⟩
    · intro _
      exact ⟨_, List.mem_cons_self, rfl⟩

end Reads

/-! ### Open spans -/

/-- How characters end: with the word or the span that is under way at
their end, and what stands before it. -/
inductive Ends : List Char → Place → Prop where
  | gap {cs : List Char} : Place.gap.after cs = .gap → Ends cs .gap
  | word {before word : List Char} : Place.gap.after before = .gap → IsWord word →
      Ends (before ++ word) .word
  | hash {before : List Char} : Place.gap.after before = .gap → Ends (before ++ ['#']) .hash
  | comment {cs : List Char} : Ends cs .comment
  | span {before word rest text : List Char} {escaping : Bool} :
      Place.gap.after before = .gap → BeginsWord word →
      Span.held false rest = some (text, escaping) →
      Ends (before ++ (word ++ '%' :: rest)) (.span escaping)

theorem Text.Span.held_append {escaping escaping' : Bool} {cs ds text : List Char}
    (h : held escaping cs = some (text, escaping')) :
    held escaping (cs ++ ds) = (held escaping' ds).map fun (rest, last) => (text ++ rest, last) := by
  induction cs generalizing escaping text with
  | nil =>
    cases h
    simp
  | cons c cs ih =>
    rw [held] at h
    rw [List.cons_append, held]
    cases hread : read escaping c with
    | add added =>
      rw [hread] at h
      obtain ⟨⟨rest, last⟩, hrest, hpair⟩ := Option.map_eq_some_iff.1 h
      cases hpair
      simp only [ih hrest, Option.map_map]
      congr 1
      funext pair
      obtain ⟨rest', last'⟩ := pair
      simp
    | escape =>
      rw [hread] at h
      exact ih h
    | close =>
      rw [hread] at h
      cases h

namespace Ends

variable {cs : List Char} {place : Place}

/-- One more character after a word, or where one may begin. -/
theorem afterText {before word : List Char} {c : Char} (hbefore : Place.gap.after before = .gap)
    (hword : BeginsWord word) (hmore : isPlain c → IsWord (word ++ [c]))
    (hplace : Place.gap.after (before ++ word ++ [c]) = Place.afterText c) :
    Ends (before ++ word ++ [c]) (Place.afterText c) := by
  rw [List.append_assoc] at hplace ⊢
  by_cases hblank : isBreak c || isIndent c
  · have hgap : Place.afterText c = .gap := by
      rw [Place.afterText, if_pos hblank]
    rw [hgap] at hplace ⊢
    exact .gap hplace
  by_cases hpercent : c = '%'
  · subst hpercent
    exact .span hbefore hword rfl
  · have hplain : isPlain c := by
      rw [Bool.or_eq_true, not_or] at hblank
      exact isPlain_iff.2 ⟨hblank.2, hblank.1, hpercent⟩
    have hgoes : Place.afterText c = .word := by
      rw [Place.afterText, if_neg hblank, if_neg hpercent]
    rw [hgoes]
    exact .word hbefore (hmore hplain)

/-- One more character. -/
theorem step (h : Ends cs place) (hplace : Place.gap.after cs = place) (c : Char) :
    Ends (cs ++ [c]) (place.next c) := by
  have hnext : Place.gap.after (cs ++ [c]) = place.next c := by
    rw [Place.after_append, hplace]
    rfl
  cases h with
  | gap hgap =>
    rw [Place.next] at hnext ⊢
    by_cases hhash : c = '#'
    · rw [if_pos hhash, hhash]
      exact .hash hgap
    · rw [if_neg hhash] at hnext ⊢
      rw [← List.append_nil cs] at hgap hnext ⊢
      exact afterText (by simpa using hgap) .nil (fun hc => .singleton hc hhash) hnext
  | word hbefore hword =>
    exact afterText hbefore hword.toBeginsWord (fun hc => hword.concat hc) hnext
  | hash hbefore =>
    rw [Place.next] at hnext ⊢
    by_cases hcomment : isBlank c && !isBreak c
    · rw [if_pos hcomment]
      exact .comment
    · rw [if_neg hcomment] at hnext ⊢
      refine afterText hbefore .hash_self (fun hc => .hash_cons hc ?_) hnext
      intro hblank
      rw [hblank, Bool.eq_false_iff.2 (isPlain_iff.1 hc).2.1] at hcomment
      exact hcomment rfl
  | comment =>
    rw [Place.next] at hnext ⊢
    by_cases hbreak : isBreak c
    · rw [if_pos hbreak] at hnext ⊢
      exact .gap hnext
    · rw [if_neg hbreak]
      exact .comment
  | @span before word rest text escaping hbefore hword hheld =>
    rw [Place.next] at hnext ⊢
    have happend : before ++ (word ++ '%' :: rest) ++ [c]
        = before ++ (word ++ '%' :: (rest ++ [c])) := by simp
    rw [happend] at hnext ⊢
    cases hread : Span.read escaping c with
    | close =>
      rw [hread] at hnext
      exact .gap hnext
    | add added =>
      have hmore : Span.held false (rest ++ [c]) = some (text ++ added, false) := by
        rw [Span.held_append hheld, Span.held, hread]
        simp [Span.held]
      exact .span hbefore hword hmore
    | escape =>
      have hmore : Span.held false (rest ++ [c]) = some (text, true) := by
        rw [Span.held_append hheld, Span.held, hread]
        simp [Span.held]
      exact .span hbefore hword hmore

theorem append (h : Ends cs place) (hplace : Place.gap.after cs = place) (ds : List Char) :
    Ends (cs ++ ds) (place.after ds) := by
  induction ds generalizing cs place with
  | nil =>
    rw [List.append_nil]
    exact h
  | cons d ds ih =>
    have hnext : Place.gap.after (cs ++ [d]) = place.next d := by
      rw [Place.after_append, hplace]
      rfl
    have hends := ih (h.step hplace d) hnext
    rw [List.append_assoc] at hends
    exact hends

end Ends

/-- A script from a span on that nothing closes. -/
theorem tokenize_open_span {before word rest text : List Char} {escaping : Bool}
    (hbefore : Place.gap.after before = .gap) (hword : BeginsWord word)
    (hheld : Span.held false rest = some (text, escaping)) :
    (tokenize (String.ofList (before ++ (word ++ '%' :: rest)))).map Token.unplaced
      = (tokenize (String.ofList before)).map Token.unplaced
        ++ Token.ofText .group (String.ofList (word ++ text ++ Span.unfinished escaping)) := by
  have hgap : (ScanState.initial.after before).place = .gap :=
    (ScanState.tidy_initial.after before).1.trans hbefore
  -- The word or the span begins after everything before it is complete.
  have hfresh : (ScanState.initial.after before).scan (word ++ '%' :: rest)
      = (ScanState.initial.after before).finish.toList
        ++ (ScanState.initial.after before).fresh.scan (word ++ '%' :: rest) := by
    cases word with
    | nil => exact ScanState.scan_of_gap hgap (by decide) (by decide) rest
    | cons c word =>
      obtain ⟨hindent, hbreak, -⟩ := isPlain_iff.1 (hword.plain c List.mem_cons_self)
      exact ScanState.scan_of_gap hgap hindent hbreak _
  have hopen : (ScanState.initial.after before).fresh.Reaches (word ++ ['%']) (.group false)
      (String.ofList word) := ScanState.reaches_open rfl rfl hword
  have hspan : word ++ '%' :: rest = (word ++ ['%']) ++ rest := by simp
  rw [tokenize, tokenize, String.toList_ofList, String.toList_ofList, ScanState.scan_append,
    ScanState.scan_eq_completed _ before, hfresh, ← List.append_assoc, List.map_append]
  congr 1
  rw [hspan, hopen.scan_append, ScanState.scan_held hopen.mode_eq hheld, hopen.text_eq,
    ← String.ofList_append, List.append_assoc]

/-- A script that leaves a span open opened it somewhere. Everything after
the percent sign is one group, with the beginning of a word that stands
before it, if there is any text. -/
theorem exists_open_span {script : String} (h : (Place.gap.after script.toList).inSpan) :
    ∃ before word rest text escaping,
      script.toList = before ++ (word ++ '%' :: rest) ∧ Place.gap.after before = .gap
        ∧ BeginsWord word ∧ Span.held false rest = some (text, escaping) := by
  have hnil : Ends [] .gap := .gap rfl
  have hends : Ends script.toList (Place.gap.after script.toList) := hnil.append rfl script.toList
  generalize Place.gap.after script.toList = place at h hends
  generalize script.toList = cs at hends
  cases hends with
  | gap _ => cases h
  | word _ _ => cases h
  | hash _ => cases h
  | comment => cases h
  | @span before word rest text escaping hbefore hword hheld =>
    exact ⟨before, word, rest, text, escaping, rfl, hbefore, hword, hheld⟩

/-! ### Scripts -/

/-- What the scanner finds in a script, line by line. -/
structure LineByLine (script : String) : Prop where
  /-- The lines are the script, cut into pieces. -/
  chars_eq : (logicalLines script).flatMap LogicalLine.chars = script.toList
  /-- The tokens are those of the lines that are not blank, each of them
  alone, and one for each run of blank lines. -/
  reads : Reads (logicalLines script) ((tokenize script).map Token.unplaced)
  /-- A line with nothing but a comment is not blank and makes no token. -/
  comment : ∀ line ∈ logicalLines script, ∀ indent comment,
    line.content = indent ++ '#' :: comment → (∀ c ∈ indent, isIndent c) →
    (∀ c ∈ comment.head?, Text.isBlank c) → line.isBlank = false ∧ line.tokens = []
  /-- A span that nothing closes takes the rest of the script into one
  group, together with the beginning of a word before it. Without any
  text there is no group. -/
  openSpan : (Place.gap.after script.toList).inSpan →
    ∃ before word rest text escaping,
      script.toList = before ++ (word ++ '%' :: rest) ∧ Place.gap.after before = .gap
        ∧ BeginsWord word ∧ Span.held false rest = some (text, escaping)
        ∧ (tokenize script).map Token.unplaced
          = (tokenize (String.ofList before)).map Token.unplaced
            ++ Token.ofText .group (String.ofList (word ++ text ++ Span.unfinished escaping))
  /-- The tokens of two lines are words and groups. Among the tokens
  between them there is an empty line exactly if there is a blank line
  between the two. -/
  between : ∀ before first between second after,
    logicalLines script = before ++ first :: (between ++ second :: after) →
    first.isBlank = false → second.isBlank = false →
    ∃ start middle finish,
      (tokenize script).map Token.unplaced
          = start ++ (first.tokens ++ (middle ++ (second.tokens ++ finish)))
        ∧ Reads before start ∧ Reads between middle ∧ Reads after finish
        ∧ (∀ token ∈ first.tokens ++ second.tokens, token.isEmptyLine = false)
        ∧ ((∃ token ∈ middle, token.isEmptyLine) ↔ ∃ line ∈ between, line.isBlank)

/-- Every script is read line by line. -/
theorem tokenize_lineByLine (script : String) : LineByLine script where
  chars_eq := flatMap_chars_logicalLines script
  reads := reads_logicalLines script
  comment _ hline _ _ hcontent hindent hcomment :=
    LogicalLine.tokens_of_comment hline hcontent hindent hcomment
  openSpan := by
    intro hspan
    obtain ⟨before, word, rest, text, escaping, hscript, hbefore, hword, hheld⟩ :=
      exists_open_span hspan
    refine ⟨before, word, rest, text, escaping, hscript, hbefore, hword, hheld, ?_⟩
    rw [← tokenize_open_span hbefore hword hheld, ← hscript, String.ofList_toList]
  between := by
    intro before first between second after hlines hfirst hsecond
    have hreads := reads_logicalLines script
    have hwords : ∀ line ∈ logicalLines script, ∀ token ∈ line.tokens,
        token.isEmptyLine = false := fun _ hline => LogicalLine.isEmptyLine_of_mem hline
    rw [hlines] at hreads hwords
    obtain ⟨start, others, htokens, hstart, hothers⟩ := hreads.exists_append hfirst
    obtain ⟨middle, finish, rfl, hmiddle, hfinish⟩ := hothers.exists_append hsecond
    refine ⟨start, middle, finish, htokens, hstart, hmiddle, hfinish, ?_, ?_⟩
    · rw [List.forall_mem_append]
      exact ⟨hwords first (by simp), hwords second (by simp)⟩
    · exact hmiddle.exists_isEmptyLine_iff fun line hline => hwords line (by simp [hline])

/-- A percent sign at the end of a script opens a span without text, and
no group comes of it. -/
theorem tokenize_open_span_empty :
    (Place.gap.after "PRINT %".toList).inSpan
      ∧ tokenize "PRINT %" = [⟨.word, "PRINT", 1⟩]
      ∧ ¬ ∃ token ∈ tokenize "PRINT %", token.kind = .group := by
  have htokens : tokenize "PRINT %" = [⟨.word, "PRINT", 1⟩] := by
    decide +kernel
  refine ⟨by decide +kernel, htokens, ?_⟩
  rw [htokens]
  simp

end EventRules

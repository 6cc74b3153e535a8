import EventRules.Proofs.Firing.Echo
import EventRules.Proofs.Grammar.Shift
import EventRules.Proofs.Script.LineStarts

/-!
# `EventRules.Proofs.Script.Append`: scripts one after the other

Two scripts with a blank line between them make the rules of both. The
first one has to be closed: at its end the scanner is not in a span.

The two line feeds first complete the word under way, if there is one,
and then leave the scanner in a run of blank lines. From there on it
goes through the second script as from the start, except that the run
becomes a token of its own, and that all lines are further down.

* `Block.split_tokenize_append`: the blocks are those of the first script
  and then, further down, those of the second.
* `Ruleset.ofScript_append_blankLine`: the rules, or the first error.
-/

set_option autoImplicit false

namespace EventRules

/-! ### The blank line -/

namespace ScanState

/-- Two line feeds outside a span end the token under way as the end of
the script would, and begin a run of blank lines. Where a run is under
way already, it goes on. -/
theorem after_blankLine {state : ScanState} (h : state.inGroup = false) :
    (state.after ['\n', '\n']).mode = .lineStart false
      ∧ (state.after ['\n', '\n']).text.isEmpty = false
      ∧ (state.completed ['\n', '\n'] = state.finish.toList
        ∨ state.completed ['\n', '\n'] = [] ∧ ∀ token ∈ state.finish, token.isEmptyLine) := by
  obtain ⟨mode, text, line, start⟩ := state
  cases mode with
  | lineStart afterReturn =>
    -- After a carriage return the first line feed belongs to it.
    refine ⟨?_, ?_, .inr ⟨?_, ?_⟩⟩
    · cases afterReturn <;> rfl
    · cases afterReturn <;> exact isEmpty_push _ _
    · cases afterReturn <;> rfl
    · intro token htoken
      exact isEmptyLine_of_token? htoken
  | word =>
    -- The first line feed completes the word, and the second is pushed.
    refine ⟨rfl, isEmpty_push _ _, .inl ?_⟩
    show (token? .word ⟨.word, text, line, start⟩).toList ++ [] = _
    exact List.append_nil _
  | hash =>
    refine ⟨rfl, isEmpty_push _ _, .inl ?_⟩
    show (token? .word ⟨.hash, text, line, start⟩).toList ++ [] = _
    exact List.append_nil _
  | comment =>
    refine ⟨rfl, isEmpty_push _ _, .inl ?_⟩
    show (token? .word ⟨.comment, text, line, start⟩).toList ++ [] = _
    exact List.append_nil _
  | group escaping => cases h

/-! ### The second script -/

/-- A run at the start is part of no block. -/
theorem split_token? (lines : Nat) (state : ScanState) (tokens : List Token) :
    Block.split (((state.token? .emptyLine).toList ++ tokens).map (Token.shift lines))
      = Block.split (tokens.map (Token.shift lines)) := by
  cases htoken : state.token? .emptyLine with
  | none => rfl
  | some token =>
    have hblank : token.isEmptyLine := isEmptyLine_of_token? htoken
    have hmoved : (token.shift lines).isEmptyLine := hblank
    exact Block.split_cons hmoved

/-- The run under way becomes a token, and after it come the blocks of a
scan that starts a number of lines further up. -/
theorem scan_of_run {lines : Nat} {state other : ScanState} {cs : List Char}
    (h : state.BeforeLine cs) (hother : other.BeforeLine cs) (hrun : state.text.isEmpty = false)
    (hline : state.line = other.line + lines) :
    ∃ blank rest, state.scan cs = blank :: rest ∧ blank.isEmptyLine
      ∧ Block.split rest = Block.split ((other.scan cs).map (Token.shift lines)) := by
  obtain ⟨next, hnext, hscan⟩ := h.scan_eq
  obtain ⟨next', hnext', hscan'⟩ := hother.scan_eq
  have htext : next.text.isEmpty = false := by
    rw [hnext.text_isEmpty, hrun]
    rfl
  -- Both scans pass the same line breaks before the first text.
  have hlines : next.line = next'.line + lines := by
    rw [hnext.line_eq, hnext'.line_eq, hline]
    omega
  refine ⟨⟨.emptyLine, next.text, next.start⟩, next.fresh.scan (cs.dropWhile Text.isLayout),
    ?_, rfl, ?_⟩
  · rw [hscan, token?_eq_some_iff.2 ⟨htext, rfl⟩]
    rfl
  · rw [hscan', split_token?, ← scan_ahead (ahead_fresh hlines)]

end ScanState

/-! ### Both scripts -/

/-- The blocks of two scripts with a blank line between them. -/
theorem Block.split_tokenize_append {first : String}
    (h : (ScanState.initial.after first.toList).inGroup = false) (second : String) :
    split (tokenize (first ++ "\n\n" ++ second))
      = split (tokenize first)
        ++ (split (tokenize second)).map
            (List.map (Token.shift (lineBreaks (first ++ "\n\n")))) := by
  obtain ⟨hmode, htext, hdone⟩ := ScanState.after_blankLine h
  have hbetween : ScanState.initial.after (first ++ "\n\n").toList
      = (ScanState.initial.after first.toList).after ['\n', '\n'] := by
    rw [String.toList_append]
    exact List.foldl_append
  have hbefore : ((ScanState.initial.after first.toList).after ['\n', '\n']).BeforeLine
      second.toList :=
    ScanState.beforeLine_of_mode hmode _
  have hline : ((ScanState.initial.after first.toList).after ['\n', '\n']).line
      = ScanState.initial.line + lineBreaks (first ++ "\n\n") := by
    rw [← hbetween, line_after_initial]
    rfl
  -- The run of blank lines is the token between the two scripts.
  obtain ⟨blank, rest, hscan, hblank, hrest⟩ :=
    ScanState.scan_of_run hbefore (ScanState.beforeLine_initial _) htext hline
  have hwhole : tokenize (first ++ "\n\n" ++ second)
      = ScanState.initial.completed first.toList
        ++ ((ScanState.initial.after first.toList).completed ['\n', '\n'] ++ blank :: rest) := by
    have hbreaks : "\n\n".toList = ['\n', '\n'] := rfl
    rw [tokenize, String.toList_append, String.toList_append, hbreaks, List.append_assoc,
      ScanState.scan_append, ScanState.scan_append, hscan]
  have hfirst : split (tokenize first)
      = split (ScanState.initial.completed first.toList
          ++ (ScanState.initial.after first.toList).completed ['\n', '\n']) := by
    rw [tokenize, ScanState.scan_eq_completed]
    rcases hdone with hdone | ⟨hdone, hfinish⟩
    · rw [hdone]
    · -- A run of blank lines at the end of the script is part of no block.
      rw [hdone, List.append_nil]
      cases hend : (ScanState.initial.after first.toList).finish with
      | none => rw [Option.toList_none, List.append_nil]
      | some token =>
        rw [Option.toList_some, split_append (hfinish token hend)]
        exact List.append_nil _
  rw [hwhole, ← List.append_assoc, split_append hblank, ← hfirst, hrest, split_shift]
  rfl

namespace Ruleset

variable {φ α ε : Type} [Host φ α ε]

/-- What the blocks of two scripts make, the second of them further
down. -/
theorem ofScript_append {platform : Platform φ ε} (hplatform : platform.Unplaced)
    {first : String} (h : (ScanState.initial.after first.toList).inGroup = false)
    (second : String) :
    ofScript (α := α) platform (first ++ "\n\n" ++ second)
      = match ofScript platform first, ofScript platform second with
        | .error error, _ => .error error
        | .ok ruleset, .error error =>
          .error (error.shift ruleset.size (lineBreaks (first ++ "\n\n")))
        | .ok ruleset, .ok other =>
          .ok ⟨ruleset.rules ++ other.rules.map (Rule.shift (lineBreaks (first ++ "\n\n")))⟩ := by
  have hne : ∀ block ∈ Block.split (tokenize second), block ≠ [] :=
    fun _ hblock => (Block.mem_split hblock).1
  simp only [ofScript, ofTokens]
  rw [Block.split_tokenize_append h, Rule.listOfBlocks_append,
    Rule.listOfBlocks_shift hplatform 1 _ hne]
  cases hfirst : Rule.listOfBlocks (α := α) platform 1 (Block.split (tokenize first)) with
  | error error => rfl
  | ok rules =>
    -- The second script's numbers go on after the first one's rules.
    have hsize : (Block.split (tokenize first)).length = rules.length :=
      (Rule.listOfBlocks_eq_ok_iff.1 hfirst).length_eq
    rw [hsize]
    cases Rule.listOfBlocks (α := α) platform 1 (Block.split (tokenize second)) <;> rfl

/-- Scripts compose at blank lines. The whole is a ruleset exactly when
both parts are, and has the rules of both. An error of the first part is
the error of the whole. So is an error of the second part if the first
one is a ruleset, with its rule counted from the rules of the first and
its line from the lines. -/
theorem ofScript_append_blankLine {platform : Platform φ ε} (hplatform : platform.Unplaced)
    {first : String} (h : (ScanState.initial.after first.toList).inGroup = false)
    (second : String) :
    (∀ whole : Ruleset α,
        ofScript platform (first ++ "\n\n" ++ second) = .ok whole
          ↔ ∃ ruleset other, ofScript platform first = .ok ruleset
              ∧ ofScript platform second = .ok other
              ∧ whole.rules = ruleset.rules
                  ++ other.rules.map (Rule.shift (lineBreaks (first ++ "\n\n"))))
      ∧ (∀ error, ofScript (α := α) platform first = .error error →
          ofScript (α := α) platform (first ++ "\n\n" ++ second) = .error error)
      ∧ ∀ (ruleset : Ruleset α) error, ofScript platform first = .ok ruleset →
          ofScript (α := α) platform second = .error error →
          ∃ rule line, error.rule = some rule ∧ error.line = some line
            ∧ ofScript (α := α) platform (first ++ "\n\n" ++ second)
              = .error { error with
                  rule := some (rule + ruleset.size)
                  line := some (line + lineBreaks (first ++ "\n\n")) } := by
  rw [ofScript_append hplatform h second]
  refine ⟨?_, ?_, ?_⟩
  · intro whole
    constructor
    · intro hwhole
      split at hwhole
      · cases hwhole
      · cases hwhole
      · next ruleset other hfirst hsecond =>
        cases hwhole
        exact ⟨ruleset, other, hfirst, hsecond, rfl⟩
    · rintro ⟨ruleset, other, hfirst, hsecond, hrules⟩
      rw [hfirst, hsecond]
      simp only [← hrules]
  · intro error herror
    rw [herror]
  · intro ruleset error hfirst hsecond
    have hblocks : ∃ rule line, error.rule = some rule ∧ error.line = some line := by
      rw [ofScript, ofTokens] at hsecond
      cases hlist : Rule.listOfBlocks (α := α) platform 1 (Block.split (tokenize second)) with
      | ok rules =>
        rw [hlist] at hsecond
        cases hsecond
      | error inner =>
        rw [hlist] at hsecond
        cases hsecond
        exact Rule.listOfBlocks_error hplatform hlist
    obtain ⟨rule, line, hrule, hline⟩ := hblocks
    refine ⟨rule, line, hrule, hline, ?_⟩
    rw [hfirst, hsecond]
    simp only [SyntaxError.shift, hrule, hline, Option.map_some]

/-- The first script ends in a comment, with a carriage return that the
blank line completes. The second one has a number that is none. -/
theorem ofScript_append_noNumber :
    Echo.platform.Unplaced
      ∧ (ScanState.initial.after "ECHO x\nON Gift # end\r".toList).inGroup = false
      ∧ ofScript Echo.platform ("ECHO x\nON Gift # end\r" ++ "\n\n"
          ++ "ECHO y\nON Gift WITH amount > lots")
        = .error ⟨.noNumber, some 2, some 5, some "lots"⟩ := by
  have hclosed : (ScanState.initial.after "ECHO x\nON Gift # end\r".toList).inGroup = false := by
    decide +kernel
  have hfirst : ofScript Echo.platform "ECHO x\nON Gift # end\r"
      = .ok ⟨[⟨"Gift", .leaf "ECHO" [⟨.word, "x", 1⟩] ["x"], [], some 2⟩]⟩ := by
    decide +kernel
  have hsecond : ofScript Echo.platform "ECHO y\nON Gift WITH amount > lots"
      = .error ⟨.noNumber, some 1, some 2, some "lots"⟩ := by
    decide +kernel
  have hlines : lineBreaks ("ECHO x\nON Gift # end\r" ++ "\n\n") = 3 := by
    decide +kernel
  refine ⟨Echo.unplaced, hclosed, ?_⟩
  obtain ⟨rule, line, hrule, hline, hwhole⟩ :=
    (ofScript_append_blankLine Echo.unplaced hclosed
      "ECHO y\nON Gift WITH amount > lots").2.2 _ _ hfirst hsecond
  cases hrule
  cases hline
  rw [hlines] at hwhole
  exact hwhole

end Ruleset

end EventRules

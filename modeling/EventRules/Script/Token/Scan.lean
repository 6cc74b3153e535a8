import EventRules.Script.Token
import EventRules.Text.Blank
import EventRules.Text.Span

/-!
# `EventRules.Script.Token.Scan`: cutting a script into tokens

`tokenize` reads a script character by character. Each character moves
a `ScanState` and completes at most one token; no script is refused.

Words are separated by spaces, tabs and line breaks. A span `%...%`
ends the token it closes, and opens in the middle of one: `a%b c%` is a
single group `ab c`. A `#` that begins a word and has a blank after it
starts a comment, which runs to the end of its line. A line feed, a
carriage return and the two together each end a line. Lines of spaces
and tabs alone make up a token of the line breaks that end them.
-/

set_option autoImplicit false

namespace EventRules

open Text

/-- Where in a script the next character stands. -/
inductive ScanMode where
  /-- Before the first text of a line. After the carriage return that
  ended the last line, a line feed belongs to that return. -/
  | lineStart (afterReturn : Bool)
  /-- On a line, outside spans and comments. -/
  | word
  /-- After a `#` that begins a word or a comment. -/
  | hash
  /-- In a comment. -/
  | comment
  /-- In a span. After a backslash, the next character decides what it
  means. -/
  | group (escaping : Bool)
  deriving DecidableEq, Repr

/-- A script read up to some point. -/
structure ScanState where
  mode : ScanMode
  /-- The text of the token under way. -/
  text : String
  /-- The line of the next character. -/
  line : Nat
  /-- The line that the token under way starts on. -/
  start : Nat
  deriving DecidableEq, Repr

namespace ScanState

/-- Before the first character of a script. -/
def initial : ScanState :=
  ⟨.lineStart false, "", 1, 1⟩

/-- Whether the next character stands in a span. -/
def inGroup (state : ScanState) : Bool :=
  match state.mode with
  | .group _ => true
  | _ => false

/-- Adds a character to the token under way. -/
def push (c : Char) (state : ScanState) : ScanState :=
  let start := if state.text.isEmpty then state.line else state.start
  { state with text := state.text.push c, start }

/-- Adds characters to the token under way. -/
def add (cs : List Char) (state : ScanState) : ScanState :=
  cs.foldl (fun state c => state.push c) state

/-- The token under way, if it has text. -/
def token? (kind : TokenKind) (state : ScanState) : Option Token :=
  if state.text.isEmpty then none else some ⟨kind, state.text, state.start⟩

/-- The state with no token under way. -/
def cleared (state : ScanState) : ScanState :=
  { state with text := "" }

/-- Moves to another mode. -/
def enter (mode : ScanMode) (state : ScanState) : ScanState :=
  { state with mode }

/-- Counts a line feed. -/
def count (c : Char) (state : ScanState) : ScanState :=
  if c = '\n' then { state with line := state.line + 1 } else state

/-- A character on a line, outside spans and comments. -/
def word (c : Char) (state : ScanState) : Option Token × ScanState :=
  if isBreak c then
    (state.token? .word,
      { state.cleared with mode := .lineStart (c = '\r'), line := state.line + 1 })
  else if isIndent c then
    (state.token? .word, state.cleared.enter .word)
  else if c = '%' then
    (none, state.enter (.group false))
  else if c = '#' ∧ state.text.isEmpty then
    (none, state.enter .hash)
  else
    (none, (state.push c).enter .word)

/-- A character before the first text of a line. -/
def lineStart (afterReturn : Bool) (c : Char) (state : ScanState) :
    Option Token × ScanState :=
  if isIndent c then
    (none, state.enter (.lineStart false))
  else if c = '\n' ∧ afterReturn then
    (none, state.enter (.lineStart false))
  else if isBreak c then
    (none, ((state.push c).count c).enter (.lineStart false))
  else
    (state.token? .emptyLine, (state.cleared.word c).2)

/-- A character after a `#` that begins a word or a comment. -/
def hash (c : Char) (state : ScanState) : Option Token × ScanState :=
  if isBreak c then state.word c
  else if isBlank c then (none, state.enter .comment)
  else ((state.push '#').word c)

/-- A character in a comment. -/
def comment (c : Char) (state : ScanState) : Option Token × ScanState :=
  if isBreak c then state.word c else (none, state)

/-- A character in a span. -/
def group (escaping : Bool) (c : Char) (state : ScanState) :
    Option Token × ScanState :=
  match Span.read escaping c with
  | .add cs => (none, ((state.add cs).count c).enter (.group false))
  | .escape => (none, state.enter (.group true))
  | .close => (state.token? .group, state.cleared.enter .word)

/-- One character: the token it completes, if any, and the state after
it. -/
def step (state : ScanState) (c : Char) : Option Token × ScanState :=
  match state.mode with
  | .lineStart afterReturn => state.lineStart afterReturn c
  | .word => state.word c
  | .hash => state.hash c
  | .comment => state.comment c
  | .group escaping => state.group escaping c

/-- The token that the end of the script completes. A span that is
still open ends with it. -/
def finish (state : ScanState) : Option Token :=
  match state.mode with
  | .lineStart _ => state.token? .emptyLine
  | .word | .hash | .comment => state.token? .word
  | .group escaping => (state.add (Span.unfinished escaping)).token? .group

/-- The tokens that the characters complete, and the one that their end
completes. -/
def scan (state : ScanState) : List Char → List Token
  | [] => state.finish.toList
  | c :: cs => (state.step c).1.toList ++ scan (state.step c).2 cs

/-- The state after the characters. -/
def after (state : ScanState) (cs : List Char) : ScanState :=
  cs.foldl (fun state c => (state.step c).2) state

/-- The tokens that the characters complete. -/
def completed (state : ScanState) : List Char → List Token
  | [] => []
  | c :: cs => (state.step c).1.toList ++ completed (state.step c).2 cs

/-- A script may be scanned in two parts, the second from the state that
the first ends in. -/
theorem scan_append (state : ScanState) (cs ds : List Char) :
    state.scan (cs ++ ds) = state.completed cs ++ (state.after cs).scan ds := by
  induction cs generalizing state with
  | nil => rfl
  | cons c cs ih => simp [scan, completed, after, ih]

end ScanState

/-- The tokens of a script. -/
def tokenize (script : String) : List Token :=
  ScanState.initial.scan script.toList

end EventRules

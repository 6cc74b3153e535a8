import EventRules.Text.Blank
import EventRules.Text.Span

/-!
# `EventRules.Text.Words`: words of a text

`splitWords` cuts a text at blanks. A span `%...%` takes part in the
word it stands in, blanks and all, so `a%b c%` is the one word `ab c`;
a span with nothing around it that holds no text is no word.
`joinWords` writes words back, in a span where a word would otherwise
fall apart.
-/

set_option autoImplicit false

namespace EventRules.Text

/-- A text read up to some point: the word under way, and whether a
span is open. -/
structure WordState where
  word : String
  /-- The open span, if any, and whether a backslash in it is
  undecided. -/
  span : Option Bool
  deriving DecidableEq, Repr

namespace WordState

/-- Between words. -/
def start : WordState := ⟨"", none⟩

/-- The word under way, if it has text. -/
def finished (state : WordState) : List String :=
  if state.word.isEmpty then [] else [state.word]

/-- Adds characters to the word under way. -/
def add (text : List Char) (state : WordState) : WordState :=
  { state with word := text.foldl String.push state.word }

/-- One character: the words it completes, and the state after it. -/
def step (state : WordState) (c : Char) : List String × WordState :=
  match state.span with
  | some escaping =>
    match Span.read escaping c with
    | .add text => ([], { state.add text with span := some false })
    | .escape => ([], { state with span := some true })
    | .close => ([], { state with span := none })
  | none =>
    if isBlank c then (state.finished, start)
    else if c = '%' then ([], { state with span := some false })
    else ([], state.add [c])

/-- The words that the characters complete, the one under way at their
end included. An open span ends with the text. -/
def scan (state : WordState) : List Char → List String
  | [] => (state.add (Span.unfinished (state.span.getD false))).finished
  | c :: cs => (state.step c).1 ++ scan (state.step c).2 cs

end WordState

/-- The words of a text. -/
def splitWords (text : String) : List String :=
  WordState.start.scan text.toList

/-- A word as it is written between others: in a span if it holds a
blank or a percent sign. -/
def writeWord (word : String) : String :=
  if word.toList.any fun c => isBlank c || c = '%' then Span.write word else word

/-- The words in one text, a space between any two. -/
def joinWords (words : List String) : String :=
  String.intercalate " " (words.map writeWord)

end EventRules.Text

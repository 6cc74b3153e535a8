/-!
# `EventRules.Text.Cursor`: reading a text one character at a time

A cursor stands before the characters that are still to be read, and
looks at most one character ahead.
-/

set_option autoImplicit false

namespace EventRules.Text

/-- A place in a text, given by what follows it. -/
structure Cursor where
  rest : List Char
  deriving DecidableEq, Repr

namespace Cursor

/-- The cursor before the first character. -/
def ofString (text : String) : Cursor :=
  ⟨text.toList⟩

/-- The next character, which stays unread. -/
def peek (cursor : Cursor) : Option Char :=
  cursor.rest.head?

/-- Whether a character is left. -/
def hasNext (cursor : Cursor) : Bool :=
  !cursor.rest.isEmpty

/-- The next character, if any, and the cursor after it. -/
def next (cursor : Cursor) : Option Char × Cursor :=
  (cursor.rest.head?, ⟨cursor.rest.tail⟩)

/-- Steps over the next character if it is the expected one, and says
whether it was. -/
def skip (expected : Char) (cursor : Cursor) : Bool × Cursor :=
  if cursor.peek = some expected then (true, cursor.next.2) else (false, cursor)

theorem hasNext_eq_isSome_peek (cursor : Cursor) : cursor.hasNext = cursor.peek.isSome := by
  rcases cursor with ⟨_ | _⟩ <;> rfl

end Cursor

end EventRules.Text

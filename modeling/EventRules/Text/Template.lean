/-!
# `EventRules.Text.Template`: text with placeholders

A placeholder is `${name}`, up to the first closing brace, whatever the
name is. A `${` with no closing brace after it is text. `pieces` reads a
text from left to right, and `fill` replaces the placeholders; what is
put in their place is not read again.
-/

set_option autoImplicit false

namespace EventRules.Text.Template

/-- A part of a text with placeholders. -/
inductive Piece where
  /-- A character that stands for itself. -/
  | char (c : Char)
  /-- A placeholder. -/
  | slot (name : List Char)
  deriving DecidableEq, Repr

/-- The text of a placeholder that is never closed. The name is read
backwards. -/
def unclosed (name : List Char) : List Piece :=
  .char '$' :: .char '\x7b' :: name.reverse.map .char

/-- The pieces of a text of which the part before it left a placeholder
open or not. The name of an open one is read backwards. -/
def piecesFrom : Option (List Char) → List Char → List Piece
  | none, [] => []
  | none, '$' :: '\x7b' :: cs => piecesFrom (some []) cs
  | none, c :: cs => .char c :: piecesFrom none cs
  | some name, [] => unclosed name
  | some name, '\x7d' :: cs => .slot name.reverse :: piecesFrom none cs
  | some name, c :: cs => piecesFrom (some (c :: name)) cs

/-- The pieces of a text, in order. -/
def pieces (cs : List Char) : List Piece :=
  piecesFrom none cs

/-- A placeholder as it is written. -/
def slotText (name : String) : String :=
  "$\x7b" ++ name ++ "\x7d"

/-- The text of a piece, with `value` in the place of its name. -/
def Piece.fill (value : String → String) : Piece → String
  | char c => c.toString
  | slot name => value (String.ofList name)

/-- The text with each placeholder replaced by the value of its name. -/
def fill (value : String → String) (text : String) : String :=
  String.join ((pieces text.toList).map (Piece.fill value))

end EventRules.Text.Template

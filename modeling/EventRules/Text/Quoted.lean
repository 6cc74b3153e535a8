import EventRules.Text.Case
import EventRules.Text.EscapeTable

/-!
# `EventRules.Text.Quoted`: text between double quotes

`quoted` writes a text so that it fits on one line of plain characters:
a double quote and a backslash are escaped, and a character that would
not show is written by its code point, as in `"a\u{200b}b"`.
-/

set_option autoImplicit false

namespace EventRules.Text

/-- How one character is written between double quotes. -/
def quotedChar (c : Char) : String :=
  match c with
  | '\x00' => "\\0"
  | '\t' => "\\t"
  | '\r' => "\\r"
  | '\n' => "\\n"
  | '"' => "\\\""
  | '\\' => "\\\\"
  | c =>
    if inRanges escapedRanges c then
      "\\u\x7b" ++ String.ofList (Nat.toDigits 16 c.toNat) ++ "\x7d"
    else c.toString

/-- The text between double quotes. -/
def quoted (text : String) : String :=
  "\"" ++ String.join (text.toList.map quotedChar) ++ "\""

/-- The quoted texts in brackets, separated by a comma and a space. -/
def quotedList (texts : List String) : String :=
  "[" ++ String.intercalate ", " (texts.map quoted) ++ "]"

end EventRules.Text

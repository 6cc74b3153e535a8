import EventRules.Number.Decimal
import EventRules.Script.SyntaxError

/-!
# `EventRules.Condition.Literal`: the values a condition compares with

The right-hand side of a comparator is text until the comparator reads
it: as a number, as a range `[lo,hi]`, or as a list `[a,b,c]`. A number
and a range that cannot be read are errors about the whole text. What is
not a list is no error: it stands for itself.
-/

set_option autoImplicit false

namespace EventRules.Literal

open Text

/-! ### Numbers -/

/-- The numeral that the text is, blanks at its ends aside. -/
def numeral? (text : String) : Option Numeral :=
  match Numeral.read? (trimChars text.toList) with
  | some (numeral, []) => some numeral
  | _ => none

/-- The number that the text denotes. -/
def number (text : String) : Except SyntaxError Double :=
  match numeral? text with
  | some numeral => .ok numeral.toDouble
  | none => .error ((SyntaxError.of .noNumber).near text)

/-! ### Ranges -/

/-- A blank that may stand around the bounds of a range. -/
def isPadding (c : Char) : Bool :=
  isIndent c || isBreak c

/-- The numeral at the front of a text and what follows it, without the
padding on either side of the numeral. -/
def paddedNumeral? (text : List Char) : Option (Numeral × List Char) :=
  (Numeral.read? (text.dropWhile isPadding)).map fun (numeral, rest) =>
    (numeral, rest.dropWhile isPadding)

/-- What follows the character at the front of a text. -/
def after? (c : Char) : List Char → Option (List Char)
  | [] => none
  | d :: rest => if d = c then some rest else none

/-- The bounds of the range that the text is, blanks at its ends
aside. -/
def bounds? (text : String) : Option (Numeral × Numeral) := do
  let rest ← after? '[' (trimChars text.toList)
  let (lo, rest) ← paddedNumeral? rest
  let rest ← after? ',' rest
  let (hi, rest) ← paddedNumeral? rest
  let rest ← after? ']' rest
  if rest.isEmpty then some (lo, hi) else none

/-- The least and the greatest number of the range that the text
denotes. -/
def range (text : String) : Except SyntaxError (Double × Double) :=
  match bounds? text with
  | none => .error ((SyntaxError.of .noRange).near text)
  | some (lo, hi) =>
    if hi.toDouble.lt lo.toDouble then
      .error ((SyntaxError.of .emptyRange).near text)
    else .ok (lo.toDouble, hi.toDouble)

/-! ### Lists -/

/-- What the text, blanks at its ends aside, has between a bracket at
its front and the first closing bracket, if that ends it. -/
def bracketed? (text : String) : Option (List Char) := do
  let rest ← after? '[' (trimChars text.toList)
  match rest.span (· ≠ ']') with
  | (body, [_]) => some body
  | _ => none

/-- The items of the list that the text is. Between commas there must
be some character; an item of blanks alone is left out. -/
def items? (text : String) : Option (List String) := do
  let pieces := (← bracketed? text).splitOnP (· = ',')
  if pieces.any (·.isEmpty) then none
  else some (((pieces.map trimChars).filter (!·.isEmpty)).map String.ofList)

end EventRules.Literal

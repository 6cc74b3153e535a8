import EventRules.Number.Double
import EventRules.Text.Blank

/-!
# `EventRules.Number.Decimal`: numbers in decimal notation

A numeral is an optional sign, digits, and optionally a point and more
digits. `Numeral.read?` takes one from the front of a text, and
`Numeral.toDouble` is the double nearest to it.
-/

set_option autoImplicit false

namespace EventRules

/-- Whether the character is one of the ten digits. -/
def isDigit (c : Char) : Bool :=
  '0' ≤ c && c ≤ '9'

/-- The number that digits denote. -/
def digitsValue (digits : List Char) : Nat :=
  digits.foldl (fun n c => 10 * n + (c.toNat - '0'.toNat)) 0

/-- A number in decimal notation. -/
structure Numeral where
  negative : Bool
  /-- The digits before the point. -/
  whole : List Char
  /-- The digits after it. -/
  fraction : List Char
  deriving DecidableEq, Repr

namespace Numeral

/-- The double nearest to the number. -/
def toDouble (numeral : Numeral) : Double :=
  .ofQuotient numeral.negative (digitsValue (numeral.whole ++ numeral.fraction))
    (Nat.pow 10 numeral.fraction.length)

/-- The sign, and what follows it. -/
def readSign : List Char → Bool × List Char
  | '+' :: rest => (false, rest)
  | '-' :: rest => (true, rest)
  | text => (false, text)

/-- The digits after a point, and what follows them: none unless a
digit follows the point. -/
def readFraction : List Char → List Char × List Char
  | '.' :: rest =>
    match rest.span isDigit with
    | ([], _) => ([], '.' :: rest)
    | split => split
  | text => ([], text)

/-- The numeral at the front of a text, and what follows it. -/
def read? (text : List Char) : Option (Numeral × List Char) :=
  let (negative, unsigned) := readSign text
  match unsigned.span isDigit with
  | ([], _) => none
  | (whole, rest) =>
    let (fraction, rest) := readFraction rest
    some (⟨negative, whole, fraction⟩, rest)

end Numeral

end EventRules

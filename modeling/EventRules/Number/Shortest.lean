import EventRules.Number.Decimal

/-!
# `EventRules.Number.Shortest`: doubles as text

A double is written with the fewest digits that read back as it, and
among those with the ones nearest to it. The notation is positional
throughout: no exponent, and no point after a whole number.

All the work is on whole numbers. Units of `10 ^ -1074` measure every
finite double: a quantum is `5 ^ 1074` of them. A candidate at scale `s` is a
multiple of `10 ^ s`; of the two on either side of the double, `pick`
takes the one that reads back, and `shortest` the one at the greatest
scale.
-/

set_option autoImplicit false

namespace EventRules.Double

/-- The number of places after the point that write any double. -/
def places : Nat := 1074

/-- The number of units of `10 ^ -1074` in a quantum. -/
def unitsPerQuantum : Nat := Nat.pow 5 places

/-- Whether a number of units reads back as a number of quanta. -/
def readsBack (quanta units : Nat) : Bool :=
  nearestQuanta units unitsPerQuantum = quanta

/-- Of the two multiples of `10 ^ scale` on either side of the double,
the one that reads back; the nearer one if both do, and the greater one
of two equally near. The result is divided by `10 ^ scale`. -/
def pick (quanta scale : Nat) : Option Nat :=
  let step := Nat.pow 10 scale
  let exact := quanta * unitsPerQuantum
  let low := exact / step
  let nearer := if step ≤ 2 * (exact % step) then low + 1 else low
  if readsBack quanta (low * step) then
    if readsBack quanta ((low + 1) * step) then some nearer else some low
  else if readsBack quanta ((low + 1) * step) then some (low + 1)
  else none

/-- The digits and the scale of the candidate at the greatest scale up to the
given one, or else all the digits at scale zero. -/
def shortestFrom (candidate : Nat → Option Nat) (all : Nat) : Nat → Nat × Nat
  | 0 => (all, 0)
  | scale + 1 =>
    match candidate (scale + 1) with
    | some digits => (digits, scale + 1)
    | none => shortestFrom candidate all scale

/-- The digits of the shortest text, and the scale of the last one in
units of `10 ^ -1074`. -/
def shortest (quanta : Nat) : Nat × Nat :=
  let all := quanta * unitsPerQuantum
  shortestFrom (pick quanta) all (Nat.toDigits 10 all).length

/-- Digits written so that the last one has the scale. -/
def positional (digits : List Char) (scale : Nat) : List Char :=
  if places ≤ scale then digits ++ List.replicate (scale - places) '0'
  else
    let decimals := places - scale
    if digits.length ≤ decimals then
      '0' :: '.' :: List.replicate (decimals - digits.length) '0' ++ digits
    else
      let whole := digits.length - decimals
      digits.take whole ++ '.' :: digits.drop whole

/-- The text of a number of quanta. -/
def quantaText (quanta : Nat) : List Char :=
  if quanta = 0 then ['0']
  else positional (Nat.toDigits 10 (shortest quanta).1) (shortest quanta).2

/-- The text of a double. -/
def text (x : Double) : String :=
  let sign (negative : Bool) : List Char := if negative then ['-'] else []
  match x with
  | nan => "NaN"
  | infinite negative => String.ofList (sign negative ++ ['i', 'n', 'f'])
  | finite negative quanta _ => String.ofList (sign negative ++ quantaText quanta)

end EventRules.Double

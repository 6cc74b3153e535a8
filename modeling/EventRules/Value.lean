import EventRules.Number.Shortest
import EventRules.Value.StringSet

/-!
# `EventRules.Value`: the values of event arguments

A value is an integer, a double, a boolean, a string or a set of
strings. `Kind.coerce` turns a value into another kind where that loses
nothing: an integer into a double that equals it for certain, a whole
double into an integer.
-/

set_option autoImplicit false

namespace EventRules

/-- A value that an event carries or an expression yields. -/
inductive Value where
  | int (n : Int64)
  | float (x : Double)
  | bool (b : Bool)
  | string (s : String)
  | set (items : StringSet)
  deriving DecidableEq

/-- The kinds of value. -/
inductive Kind where
  | int
  | float
  | bool
  | string
  | set
  deriving DecidableEq, Repr

/-- The kind's name in messages. -/
def Kind.name : Kind → String
  | .int => "integer"
  | .float => "double"
  | .bool => "boolean"
  | .string => "string"
  | .set => "set of strings"

namespace Value

/-- The kind of the value. -/
def kind : Value → Kind
  | int _ => .int
  | float _ => .float
  | bool _ => .bool
  | string _ => .string
  | set _ => .set

/-- The value as a number; an integer counts as the double nearest to
it. -/
def number? : Value → Option Double
  | int n => some (.ofInt n.toInt)
  | float x => some x
  | _ => none

/-- The integer, if the value is one. -/
def int? : Value → Option Int64
  | int n => some n
  | _ => none

/-- The boolean, if the value is one. -/
def bool? : Value → Option Bool
  | bool b => some b
  | _ => none

/-- The string, if the value is one. -/
def string? : Value → Option String
  | string s => some s
  | _ => none

/-- The set, if the value is one. -/
def set? : Value → Option StringSet
  | set items => some items
  | _ => none

/-- The value as it is shown. -/
def text : Value → String
  | int n => toString n.toInt
  | float x => x.text
  | bool b => if b then "true" else "false"
  | string s => s
  | set items => String.intercalate ", " items.toList

end Value

/-- The greatest magnitude up to which every integer is a double. -/
def maxExactInt : Nat := Double.precision

/-- The value as the kind, if nothing is lost. -/
def Kind.coerce (kind : Kind) (value : Value) : Option Value :=
  match kind, value with
  | .float, .int n =>
    if n.toInt.natAbs ≤ maxExactInt then some (.float (.ofInt n.toInt)) else none
  | .int, .float x => x.toInt?.map .int
  | kind, value => if value.kind = kind then some value else none

end EventRules

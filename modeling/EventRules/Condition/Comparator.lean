import EventRules.Condition.Literal
import EventRules.Text.Part
import EventRules.Value

/-!
# `EventRules.Condition.Comparator`: comparing values with literals

A comparator is an operator with its right-hand side already read.
`Operator.read` makes one from text, `Comparator.compare` tests a value,
and `Comparator.text` writes the comparator as a script does. Numbers
are compared as doubles, and only numbers; text is compared in lower
case, and every value has a text.
-/

set_option autoImplicit false

namespace EventRules

/-! ### Operators -/

/-- The numerical relations. -/
inductive Relation where
  | equal
  | greater
  | greaterOrEqual
  | less
  | lessOrEqual
  deriving DecidableEq, Repr

namespace Relation

/-- The relation as it is written. -/
def symbol : Relation → String
  | equal => "="
  | greater => ">"
  | greaterOrEqual => ">="
  | less => "<"
  | lessOrEqual => "<="

/-- Whether the relation holds between two doubles. -/
def holds : Relation → Double → Double → Bool
  | equal, x, y => x.eq y
  | greater, x, y => y.lt x
  | greaterOrEqual, x, y => y.le x
  | less, x, y => x.lt y
  | lessOrEqual, x, y => x.le y

end Relation

/-- The ways to compare a value with a literal. -/
inductive Operator where
  | number (relation : Relation)
  | startsWith
  | endsWith
  | contains
  | is
  | inRange
  deriving DecidableEq, Repr

namespace Operator

/-- The operator as it is written. -/
def symbol : Operator → String
  | number relation => relation.symbol
  | startsWith => "PREFIX"
  | endsWith => "POSTFIX"
  | contains => "CONTAINS"
  | is => "IS"
  | inRange => "IN RANGE"

/-- All operators. -/
def all : List Operator :=
  [number .equal, number .greater, number .greaterOrEqual, number .less,
    number .lessOrEqual, startsWith, endsWith, contains, is, inRange]

end Operator

/-! ### Comparators -/

/-- What is looked for inside a value. -/
inductive Needle where
  /-- A text. -/
  | text (needle : String)
  /-- Any one of several texts. -/
  | anyOf (options : StringSet)
  deriving DecidableEq

/-- An operator and what it compares with. -/
inductive Comparator where
  | number (relation : Relation) (right : Double)
  | startsWith (right : String)
  | endsWith (right : String)
  | contains (right : Needle)
  | is (right : String)
  | inRange (lo hi : Double)
  deriving DecidableEq

/-- What `CONTAINS` looks for: the items of a list, or else the whole
text, in lower case. -/
def Needle.ofText (right : String) : Needle :=
  match Literal.items? (Text.lower right) with
  | some items => .anyOf (.ofList items)
  | none => .text (Text.lower right)

/-- The comparator with the right-hand side that the text denotes. -/
def Operator.read : Operator → String → Except SyntaxError Comparator
  | number relation, right => (Literal.number right).map (.number relation)
  | startsWith, right => .ok (.startsWith (Text.lower right))
  | endsWith, right => .ok (.endsWith (Text.lower right))
  | contains, right => .ok (.contains (.ofText right))
  | is, right => .ok (.is (Text.lower right))
  | inRange, right => (Literal.range right).map fun (lo, hi) => .inRange lo hi

namespace Needle

/-- Whether one of the set's members is the needle, in lower case. -/
def isAmong (items : StringSet) (needle : String) : Bool :=
  items.toList.any (Text.lower · = needle)

/-- Whether the needle is in the value: a member of a set, a part of the
text of anything else. One of several options must be a member of a
set, or the whole text of anything else. -/
def isIn : Needle → Value → Bool
  | text needle, .set items => isAmong items needle
  | anyOf options, .set items => options.toList.any (isAmong items)
  | text needle, value => Text.occursIn needle.toList (Text.lower value.text).toList
  | anyOf options, value => decide (Text.lower value.text ∈ options)

/-- The needle as a script writes it. -/
def display : Needle → String
  | text needle => needle
  | anyOf options => "[" ++ String.intercalate "," options.toList ++ "]"

end Needle

namespace Comparator

/-- The operator. -/
def operator : Comparator → Operator
  | number relation _ => .number relation
  | startsWith _ => .startsWith
  | endsWith _ => .endsWith
  | contains _ => .contains
  | is _ => .is
  | inRange _ _ => .inRange

/-- Whether the comparison holds of the value. A numerical one holds of
numbers only. -/
def compare (comparator : Comparator) (left : Value) : Bool :=
  match comparator with
  | number relation right => left.number?.any (relation.holds · right)
  | startsWith right => right.toList.isPrefixOf (Text.lower left.text).toList
  | endsWith right => right.toList.isSuffixOf (Text.lower left.text).toList
  | contains right => right.isIn left
  | is right => Text.lower left.text = right
  | inRange lo hi => left.number?.any fun x => lo.le x && x.le hi

/-- The right-hand side as a script writes it. -/
def rightText : Comparator → String
  | number _ right => right.text
  | startsWith right | endsWith right | is right => right
  | contains right => right.display
  | inRange lo hi => "[" ++ lo.text ++ "," ++ hi.text ++ "]"

/-- The comparator as a script writes it. -/
def text (comparator : Comparator) : String :=
  comparator.operator.symbol ++ " " ++ comparator.rightText

end Comparator

end EventRules

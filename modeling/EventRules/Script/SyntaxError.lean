import EventRules.Script.Token

/-!
# `EventRules.Script.SyntaxError`: what is wrong with a script

A fault says what was expected, and a syntax error adds where: the rule,
the line and the word. Whoever learns of a place first is nearest to the
fault, so a place that is already known is kept.
-/

set_option autoImplicit false

namespace EventRules

/-- The reasons to refuse a script, a line or a literal. -/
inductive Fault where
  /-- The last line of a rule does not begin with `ON`. -/
  | noOnLine
  /-- A rule consists of its `ON` line. -/
  | noActionBeforeOn
  /-- The keyword `ON` has no event name after it. -/
  | noEventName
  /-- The keyword `WITH` has nothing after it. -/
  | noPredicateAfterWith
  /-- There are no words to read an action from. -/
  | noAction
  /-- No action is registered under the name. -/
  | unknownAction (name : String)
  /-- The keyword `IF` is not followed by `THEN`. -/
  | noThen
  /-- The keyword `THEN` directly follows `IF`. -/
  | noConditionAfterIf
  /-- The keyword `THEN` has nothing after it. -/
  | noActionAfterThen
  /-- The keyword `ELSE` has nothing after it. -/
  | noActionAfterElse
  /-- The words are no field, comparator and value. -/
  | noPredicate (words : String)
  /-- No comparator is registered under the symbol. -/
  | unknownComparator (symbol : String)
  /-- A number was expected. -/
  | noNumber
  /-- A range of numbers was expected. -/
  | noRange
  /-- A range ends before it begins. -/
  | emptyRange
  /-- The script could not be read. -/
  | unreadable (reason : String)
  /-- A registered action or comparator refused its words. -/
  | refused (reason : String)
  deriving DecidableEq, Repr

/-- The fault in words. -/
def Fault.message : Fault → String
  | .noOnLine => "expected 'ON <event>' as the last line of the rule"
  | .noActionBeforeOn => "expected an action before 'ON'"
  | .noEventName => "expected an event name after 'ON'"
  | .noPredicateAfterWith => "expected a predicate after 'WITH'"
  | .noAction => "expected an action"
  | .unknownAction name => "unknown action name '" ++ name ++ "'"
  | .noThen => "expected 'THEN' after condition"
  | .noConditionAfterIf => "expected a condition after 'IF'"
  | .noActionAfterThen => "expected an action after 'THEN'"
  | .noActionAfterElse => "expected an action after 'ELSE'"
  | .noPredicate words =>
    "expected '<field> <comparator> <value>', found '" ++ words ++ "'"
  | .unknownComparator symbol => "unknown comparator symbol '" ++ symbol ++ "'"
  | .noNumber => "expected a number"
  | .noRange => "expected a range like [1,100]"
  | .emptyRange => "range lower bound exceeds upper bound"
  | .unreadable reason => "failed to read script: " ++ reason
  | .refused reason => reason

/-- A fault and the places known of it. -/
structure SyntaxError where
  fault : Fault
  /-- The number of the rule, counted from 1. -/
  rule : Option Nat := none
  /-- The line, counted from 1. -/
  line : Option Nat := none
  /-- The word at fault. -/
  word : Option String := none
  deriving DecidableEq, Repr

namespace SyntaxError

/-- The fault, with no place known. -/
def of (fault : Fault) : SyntaxError :=
  ⟨fault, none, none, none⟩

/-- Adds the number of the rule, unless one is known. -/
def inRule (rule : Nat) (error : SyntaxError) : SyntaxError :=
  { error with rule := error.rule.or (some rule) }

/-- Adds the line, unless one is known. -/
def atLine (line : Nat) (error : SyntaxError) : SyntaxError :=
  { error with line := error.line.or (some line) }

/-- Adds the word, unless one is known. -/
def near (word : String) (error : SyntaxError) : SyntaxError :=
  { error with word := error.word.or (some word) }

/-- The fault and its known places in words. -/
def message (error : SyntaxError) : String :=
  "syntax error"
    ++ (error.rule.elim "" fun rule => " in rule #" ++ toString rule)
    ++ (error.line.elim "" fun line => " (line " ++ toString line ++ ")")
    ++ (error.word.elim "" fun word => " near '" ++ word ++ "'")
    ++ ": " ++ error.fault.message

end SyntaxError

end EventRules

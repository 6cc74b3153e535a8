import EventRules.Condition.Comparator
import EventRules.Event
import EventRules.Text.Quoted
import Std.Data.TreeMap

/-!
# `EventRules.Firing.Platform`: what scripts can name

A platform is four registries: actions, expressions, comparators and
events. Scripts are read and performed with one. Registering a name
again replaces what it stood for. Action names are looked up in upper
case; comparator symbols too, with their words one space apart;
expressions and events by their exact names.

The types `φ` of action factories and `ε` of expressions are the host's.
-/

set_option autoImplicit false

namespace EventRules

/-- Makes a comparator of the text on its right. -/
abbrev ComparatorFactory : Type := String → Except SyntaxError Comparator

/-- What a placeholder stands for. -/
inductive Expression (ε : Type) where
  /-- The name of the event. -/
  | eventName
  /-- The target of the event. -/
  | target
  /-- An expression of the host. -/
  | custom (expression : ε)
  deriving DecidableEq

/-- Something to register under a name. -/
inductive Registration (φ ε : Type) where
  | action (name : String) (factory : φ)
  | expression (name : String) (expression : Expression ε)
  | comparator (symbol : String) (factory : ComparatorFactory)
  | event (event : Event)
  /-- The operators, under their own symbols. -/
  | standardComparators
  /-- The event's name as `event` and its target as `target`. -/
  | standardExpressions

/-- The names that scripts can use. -/
structure Platform (φ ε : Type) where
  name : String
  actions : Std.TreeMap String φ
  expressions : Std.TreeMap String (Expression ε)
  comparators : Std.TreeMap String ComparatorFactory
  events : Std.TreeMap String Event

namespace Platform

variable {φ ε : Type}

/-- A comparator symbol in the form it is looked up in. -/
def normalSymbol (symbol : String) : String :=
  Text.upper (String.intercalate " " (Text.blankSeparated symbol))

/-! ### Registration -/

/-- A platform that knows no names. -/
def ofName (name : String) : Platform φ ε :=
  ⟨name, ∅, ∅, ∅, ∅⟩

/-- Registers an action. -/
def addAction (name : String) (factory : φ) (platform : Platform φ ε) : Platform φ ε :=
  { platform with actions := platform.actions.insert (Text.upper name) factory }

/-- Registers an expression. -/
def addExpression (name : String) (expression : Expression ε) (platform : Platform φ ε) :
    Platform φ ε :=
  { platform with expressions := platform.expressions.insert name expression }

/-- Registers a comparator. -/
def addComparator (symbol : String) (factory : ComparatorFactory)
    (platform : Platform φ ε) : Platform φ ε :=
  { platform with
    comparators := platform.comparators.insert (normalSymbol symbol) factory }

/-- Registers an event. -/
def addEvent (event : Event) (platform : Platform φ ε) : Platform φ ε :=
  { platform with events := platform.events.insert event.name event }

/-- Registers the operators under their own symbols. -/
def addStandardComparators (platform : Platform φ ε) : Platform φ ε :=
  Operator.all.foldl
    (fun platform operator => platform.addComparator operator.symbol operator.read) platform

/-- Registers the event's name as `event` and its target as `target`. -/
def addStandardExpressions (platform : Platform φ ε) : Platform φ ε :=
  (platform.addExpression "event" .eventName).addExpression "target" .target

/-- Carries out a registration. -/
def register (platform : Platform φ ε) : Registration φ ε → Platform φ ε
  | .action name factory => platform.addAction name factory
  | .expression name expression => platform.addExpression name expression
  | .comparator symbol factory => platform.addComparator symbol factory
  | .event event => platform.addEvent event
  | .standardComparators => platform.addStandardComparators
  | .standardExpressions => platform.addStandardExpressions

/-- The platform after the registrations, in order. -/
def ofRegistrations (name : String) (registrations : List (Registration φ ε)) :
    Platform φ ε :=
  registrations.foldl register (ofName name)

/-! ### Lookup -/

/-- The action of a name, in any case. -/
def action? (platform : Platform φ ε) (name : String) : Option φ :=
  platform.actions[Text.upper name]?

/-- The expression of a name. -/
def expression? (platform : Platform φ ε) (name : String) : Option (Expression ε) :=
  platform.expressions[name]?

/-- The comparator of a symbol, in any case and spacing. -/
def comparator? (platform : Platform φ ε) (symbol : String) : Option ComparatorFactory :=
  platform.comparators[normalSymbol symbol]?

/-- The event of a name. -/
def event? (platform : Platform φ ε) (name : String) : Option Event :=
  platform.events[name]?

/-- Everything that is registered, by name, in ascending order. -/
def listing (platform : Platform φ ε) : String :=
  "Platform \x7b name: " ++ Text.quoted platform.name
    ++ ", actions: " ++ Text.quotedList platform.actions.keys
    ++ ", expressions: " ++ Text.quotedList platform.expressions.keys
    ++ ", comparators: " ++ Text.quotedList platform.comparators.keys
    ++ ", events: " ++ Text.quotedList platform.events.keys ++ " \x7d"

end Platform

end EventRules

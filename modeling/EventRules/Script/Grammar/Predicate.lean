import EventRules.Condition.Predicate
import EventRules.Firing.Platform

/-!
# `EventRules.Script.Grammar.Predicate`: reading predicates

A predicate is a field, the words of a comparator symbol, and a value.
The value is the last word, or what a `[` begins and the last word ends
with a `]`, so a list may have spaces in it. A condition is predicates
with the keyword `AND` between them.
-/

set_option autoImplicit false

namespace EventRules

variable {φ ε : Type}

namespace Predicate

/-- Where the last word that begins with a bracket stands. -/
def lastOpening? : List String → Option Nat
  | [] => none
  | word :: rest =>
    match lastOpening? rest with
    | some index => some (index + 1)
    | none => if word.toList.head? = some '[' then some 0 else none

/-- Whether the last word ends with a bracket. -/
def endsClosed (words : List String) : Bool :=
  (words.getLast?.map fun word => decide (word.toList.getLast? = some ']')).getD false

/-- Where the value begins among the words of a predicate. -/
def valueStart (words : List String) : Nat :=
  if endsClosed words then (lastOpening? words).getD (words.length - 1)
  else words.length - 1

/-- The field, the symbol and the value among the words of a predicate,
which takes one word each at least. -/
def divide? (words : List String) : Option (String × String × String) :=
  match words with
  | field :: rest =>
    let start := valueStart words - 1
    if start = 0 then none
    else
      some (field, Text.upper (String.intercalate " " (rest.take start)),
        String.intercalate " " (rest.drop start))
  | [] => none

/-- The predicate that the words of the tokens make. -/
def ofTokens (platform : Platform φ ε) (tokens : List Token) :
    Except SyntaxError Predicate :=
  match divide? (Token.texts tokens) with
  | none => .error (.of (.noPredicate (Token.phrase tokens)))
  | some (field, symbol, value) =>
    match platform.comparator? symbol with
    | none => .error ((SyntaxError.of (.unknownComparator symbol)).near symbol)
    | some factory => (factory value).map (⟨field, ·⟩)

/-- The predicate on a line, or on several: blank lines do not matter. -/
def read (platform : Platform φ ε) (tokens : List Token) : Except SyntaxError Predicate :=
  ofTokens platform (Token.content tokens)

/-- The predicates that the tokens between keywords `AND` make. -/
def listOfTokens (platform : Platform φ ε) (tokens : List Token) :
    Except SyntaxError (List Predicate) :=
  (tokens.splitOnP (·.isKeyword .and)).mapM (ofTokens platform)

end Predicate

end EventRules

import EventRules.Rule
import EventRules.Script.Grammar.Action
import EventRules.Script.Token.Scan

/-!
# `EventRules.Script.Grammar.Rule`: reading rules

A script is blocks of lines with blank lines between them, one block for
a rule. The last line of a block is

    ON event [WITH predicate [AND predicate]...]

and the lines before it are the action. `Ruleset.ofTokens` reads all
blocks and stops at the first fault, to which it adds the number of the
block.
-/

set_option autoImplicit false

namespace EventRules

/-- The parts of a block: the action's tokens, and those of the last
line. -/
structure Block where
  action : List Token
  onLine : List Token
  /-- The number of the last line. -/
  line : Nat
  deriving DecidableEq, Repr

namespace Block

/-- Divides a block before the first token of its last line. -/
def ofTokens (tokens : List Token) : Block :=
  let line := (tokens.getLast?.map (·.line)).getD 0
  ⟨tokens.takeWhile (·.line ≠ line), tokens.dropWhile (·.line ≠ line), line⟩

/-- The blocks between runs of blank lines, those without tokens left
out. -/
def split (tokens : List Token) : List (List Token) :=
  (tokens.splitOnP (·.isEmptyLine)).filter (!·.isEmpty)

end Block

/-- What a rule's last line says after `ON`: the event's name, and the
tokens of the predicates, if any. -/
def eventClause (tokens : List Token) : List Token × Option (List Token) :=
  match Token.cutAt .with tokens with
  | none => (tokens, none)
  | some (event, predicates) => (event, some predicates)

namespace Rule

variable {φ α ε : Type} [Host φ α ε]

/-- The predicates after `WITH`, if there is one. -/
def predicatesOfTokens (platform : Platform φ ε) :
    Option (List Token) → Except SyntaxError (List Predicate)
  | none => .ok []
  | some [] => .error (.of .noPredicateAfterWith)
  | some tokens => Predicate.listOfTokens platform tokens

/-- The event and the predicates on a rule's last line. -/
def triggerOfTokens (platform : Platform φ ε) (block : Block) :
    Except SyntaxError (String × List Predicate) :=
  match block.onLine with
  | [] => .error (.of .noOnLine)
  | keyword :: rest =>
    if !keyword.isKeyword .on then
      .error ((SyntaxError.of .noOnLine).near keyword.text)
    else if block.action.isEmpty then
      .error (.of .noActionBeforeOn)
    else
      let (event, predicates) := eventClause rest
      if event.isEmpty then .error (.of .noEventName)
      else (predicatesOfTokens platform predicates).map (Token.phrase event, ·)

/-- The rule that a block makes. A fault in its last line comes before
one in its action, which lies on the block's first line. -/
def ofBlock (platform : Platform φ ε) (tokens : List Token) :
    Except SyntaxError (Rule α) :=
  let block := Block.ofTokens tokens
  match triggerOfTokens platform block with
  | .error error => .error (error.atLine block.line)
  | .ok (event, predicates) =>
    match Action.ofTokens platform block.action with
    | .error error =>
      .error (block.action.head?.elim error fun first => error.atLine first.line)
    | .ok action => .ok ⟨event, action, predicates, some block.line⟩

/-- The rules that blocks make, the first of them being the rule of a
number. -/
def listOfBlocks (platform : Platform φ ε) (number : Nat) :
    List (List Token) → Except SyntaxError (List (Rule α))
  | [] => .ok []
  | block :: rest =>
    match ofBlock platform block with
    | .error error => .error (error.inRule number)
    | .ok rule => (listOfBlocks platform (number + 1) rest).map (rule :: ·)

end Rule

namespace Ruleset

variable {φ α ε : Type} [Host φ α ε]

/-- The rules that the tokens make. -/
def ofTokens (platform : Platform φ ε) (tokens : List Token) :
    Except SyntaxError (Ruleset α) :=
  (Rule.listOfBlocks platform 1 (Block.split tokens)).map (⟨·⟩)

/-- The rules of a script. -/
def ofScript (platform : Platform φ ε) (script : String) :
    Except SyntaxError (Ruleset α) :=
  ofTokens platform (tokenize script)

end Ruleset

end EventRules

import EventRules.Script.Grammar.Rule
import EventRules.Script.Reading

/-!
# `EventRules.Failure`: everything that can go wrong

One type for the errors of reading scripts, performing rules, writing
properties and opening files, each in the words it has on its own.
-/

set_option autoImplicit false

namespace EventRules

/-- The reasons why a file yields no script. -/
inductive FileFault where
  | notFound
  /-- The content is not UTF-8. -/
  | invalidData
  deriving DecidableEq, Repr

/-- The fault in words. -/
def FileFault.message : FileFault → String
  | .notFound => "No such file or directory (os error 2)"
  | .invalidData => Reading.invalidText

/-- Any error. -/
inductive Failure where
  | script (error : SyntaxError)
  | performing (error : PerformingError)
  | property (error : PropertyError)
  | file (fault : FileFault)
  deriving DecidableEq, Repr

/-- The error in its own words. -/
def Failure.message : Failure → String
  | .script error => error.message
  | .performing error => error.message
  | .property error => error.message
  | .file fault => fault.message

/-- The rules of the script in a file, given its content if it
exists. -/
def Ruleset.ofFile {φ α ε : Type} [Host φ α ε] (platform : Platform φ ε)
    (content : Option ByteArray) : Except Failure (Ruleset α) :=
  match content with
  | none => .error (.file .notFound)
  | some bytes =>
    match String.fromUTF8? bytes with
    | none => .error (.file .invalidData)
    | some script => (ofScript platform script).mapError .script

end EventRules

import EventRules.Script.SyntaxError
import EventRules.Script.Token.Scan

/-!
# `EventRules.Script.Reading`: scripts from bytes

A script arrives as bytes: the whole content of a file, or what a source
yields until it ends or fails.
-/

set_option autoImplicit false

namespace EventRules

/-- What came out of a byte source: the bytes, and the reason why it
failed after them, if it did. -/
structure Reading where
  bytes : ByteArray
  failure : Option String

namespace Reading

/-- The reason given for bytes that are not UTF-8. -/
def invalidText : String :=
  "stream did not contain valid UTF-8"

/-- The text that was read. A failed source yields none, whatever came
before the failure. -/
def text (reading : Reading) : Except String String :=
  match reading.failure with
  | some reason => .error reason
  | none =>
    match String.fromUTF8? reading.bytes with
    | some text => .ok text
    | none => .error invalidText

/-- The tokens of the script that was read. -/
def tokens (reading : Reading) : Except SyntaxError (List Token) :=
  match reading.text with
  | .ok script => .ok (tokenize script)
  | .error reason => .error (.of (.unreadable reason))

end Reading

end EventRules

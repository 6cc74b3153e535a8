import EventRules.Text.CaseTable

/-!
# `EventRules.Text.Case`: upper and lower case

`lower` and `upper` are the full case mappings: one letter may turn into
several, and a capital sigma that ends a word becomes a final sigma.
`equalIgnoringCase` compares two texts up to the case of ASCII letters
only, which is how keywords are recognised.
-/

set_option autoImplicit false

namespace EventRules.Text

/-- The case mapping of one character that the runs and sequences give:
the character itself where neither names it. -/
def mapCase (runs : List CaseRun) (sequences : List (Nat × List Nat)) (c : Char) :
    List Char :=
  match sequences.lookup c.toNat with
  | some codes => codes.map Char.ofNat
  | none =>
    match runs.find? (·.covers c.toNat) with
    | some run => [Char.ofNat (c.toNat + run.shift).toNat]
    | none => [c]

/-- The lower case of one character, wherever it stands. -/
def lowerChar (c : Char) : List Char :=
  if c.toNat < 128 then [c.toLower] else mapCase lowerRuns lowerSequences c

/-- The upper case of one character. -/
def upperChar (c : Char) : List Char :=
  if c.toNat < 128 then [c.toUpper] else mapCase upperRuns upperSequences c

/-- Whether one of the ranges holds the character. -/
def inRanges (ranges : List (Nat × Nat)) (c : Char) : Bool :=
  ranges.any fun (first, last) => first ≤ c.toNat && c.toNat ≤ last

/-- Whether the first character that is not passed over is a letter
with case. -/
def meetsLetter (cs : List Char) : Bool :=
  match cs.find? (!inRanges ignorableRanges ·) with
  | some c => inRanges casedRanges c
  | none => false

/-- The lower case of a capital sigma: final when a letter comes before
it and none after it. `before` is read backwards. -/
def lowerSigma (before after : List Char) : Char :=
  if meetsLetter before && !meetsLetter after then 'ς' else 'σ'

/-- The lower case of the characters that follow `before`, which is
read backwards. -/
def lowerAfter (before : List Char) : List Char → List Char
  | [] => []
  | 'Σ' :: after => lowerSigma before after :: lowerAfter ('Σ' :: before) after
  | c :: after => lowerChar c ++ lowerAfter (c :: before) after

/-- The text in lower case. -/
def lower (text : String) : String :=
  String.ofList (lowerAfter [] text.toList)

/-- The text in upper case. -/
def upper (text : String) : String :=
  String.ofList (text.toList.flatMap upperChar)

/-- Whether two texts differ at most in the case of ASCII letters. -/
def equalIgnoringCase (a b : String) : Bool :=
  a.toList.map Char.toLower == b.toList.map Char.toLower

end EventRules.Text

import EventRules.Text.Case

/-!
# `EventRules.Script.Token`: the words of a script

A script is read as tokens: bare words, groups (the text of a span), and
runs of blank lines, which separate rules. Keywords are recognised in
bare words only, so `%then%` is always text.
-/

set_option autoImplicit false

namespace EventRules

/-- The kinds of token. -/
inductive TokenKind where
  /-- A bare word. -/
  | word
  /-- The text of a span `%...%`. -/
  | group
  /-- A run of blank lines. -/
  | emptyLine
  deriving DecidableEq, Repr

/-- A piece of a script. -/
structure Token where
  kind : TokenKind
  text : String
  /-- The line the text starts on, counted from 1. -/
  line : Nat
  deriving DecidableEq, Repr

/-- The words with a meaning of their own. -/
inductive Keyword where
  | on
  | with
  | and
  | if
  | then
  | else
  deriving DecidableEq, Repr

/-- The keyword as it is usually written. -/
def Keyword.text : Keyword → String
  | .on => "ON"
  | .with => "WITH"
  | .and => "AND"
  | .if => "IF"
  | .then => "THEN"
  | .else => "ELSE"

namespace Token

/-- Whether the token is the keyword: a bare word that differs from it
at most in the case of its letters. -/
def isKeyword (keyword : Keyword) (token : Token) : Bool :=
  token.kind = .word && Text.equalIgnoringCase token.text keyword.text

/-- Whether the token is a run of blank lines. -/
def isEmptyLine (token : Token) : Bool :=
  token.kind = .emptyLine

/-- The words as bare words on one line. -/
def ofWords (words : List String) : List Token :=
  words.map (⟨.word, ·, 1⟩)

/-- The texts of the tokens. -/
def texts (tokens : List Token) : List String :=
  tokens.map (·.text)

/-- The texts of the tokens with a space between any two. -/
def phrase (tokens : List Token) : String :=
  String.intercalate " " (texts tokens)

/-- The tokens without the runs of blank lines. -/
def content (tokens : List Token) : List Token :=
  tokens.filter (!·.isEmptyLine)

/-- The tokens before and after the first occurrence of the keyword. -/
def cutAt (keyword : Keyword) : List Token → Option (List Token × List Token)
  | [] => none
  | token :: rest =>
    if token.isKeyword keyword then some ([], rest)
    else (cutAt keyword rest).map fun (before, after) => (token :: before, after)

/-- A cut takes the keyword out and keeps the rest. -/
theorem length_of_cutAt {keyword : Keyword} {tokens before after : List Token}
    (h : cutAt keyword tokens = some (before, after)) :
    before.length + after.length + 1 = tokens.length := by
  induction tokens generalizing before with
  | nil => simp [cutAt] at h
  | cons token rest ih =>
    unfold cutAt at h
    split at h
    · simp only [Option.some.injEq, Prod.mk.injEq] at h
      obtain ⟨rfl, rfl⟩ := h
      simp
    · obtain ⟨⟨b, a⟩, hcut, heq⟩ := Option.map_eq_some_iff.1 h
      simp only [Prod.mk.injEq] at heq
      obtain ⟨rfl, rfl⟩ := heq
      have := ih hcut
      simp only [List.length_cons]
      omega

end Token

end EventRules

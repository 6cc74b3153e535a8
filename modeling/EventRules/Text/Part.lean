/-!
# `EventRules.Text.Part`: texts within texts

Whether a text stands somewhere in another, as `occursIn` decides by
trying each place in turn. `occursIn_iff` says that it finds every
occurrence and nothing else.
-/

set_option autoImplicit false

namespace EventRules.Text

/-- Whether the part stands somewhere in the text. -/
def occursIn (part : List Char) : List Char → Bool
  | [] => part.isEmpty
  | c :: cs => part.isPrefixOf (c :: cs) || occursIn part cs

theorem occursIn_iff {part text : List Char} : occursIn part text ↔ part <:+: text := by
  induction text with
  | nil => simp [occursIn]
  | cons c cs ih => simp [occursIn, ih, List.infix_cons_iff]

end EventRules.Text

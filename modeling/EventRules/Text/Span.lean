/-!
# `EventRules.Text.Span`: text between percent signs

A span `%...%` keeps its text together, blanks and line breaks
included. Inside it a backslash takes away the meaning of a percent
sign or of another backslash, and stands for itself before anything
else. `Span.write` puts a text into a span, and `Span.read` says what
each character inside one does; both readers of spans go through it.
-/

set_option autoImplicit false

namespace EventRules.Text.Span

/-- What a character inside a span does. -/
inductive Step where
  /-- It adds text. -/
  | add (text : List Char)
  /-- It is a backslash whose meaning the next character decides. -/
  | escape
  /-- It closes the span. -/
  | close
  deriving DecidableEq, Repr

/-- What the character does; `escaping` says that a backslash stands
undecided before it. -/
def read (escaping : Bool) (c : Char) : Step :=
  if escaping then
    if c = '%' ∨ c = '\\' then .add [c] else .add ['\\', c]
  else if c = '\\' then .escape
  else if c = '%' then .close
  else .add [c]

/-- A backslash is undecided that no other one stands before. -/
theorem eq_of_read_escape {escaping : Bool} {c : Char} (h : read escaping c = .escape) :
    escaping = false ∧ c = '\\' := by
  rw [read] at h
  cases escaping with
  | true =>
    rw [if_pos rfl] at h
    split at h <;> cases h
  | false =>
    simp only [Bool.false_eq_true, if_false] at h
    split at h
    · next hbackslash => exact ⟨rfl, hbackslash⟩
    split at h <;> cases h

/-- Only a percent sign that no backslash stands before closes a span. -/
theorem eq_of_read_close {escaping : Bool} {c : Char} (h : read escaping c = .close) :
    escaping = false ∧ c = '%' := by
  rw [read] at h
  cases escaping with
  | true =>
    rw [if_pos rfl] at h
    split at h <;> cases h
  | false =>
    simp only [Bool.false_eq_true, if_false] at h
    split at h
    · cases h
    split at h
    · next hpercent => exact ⟨rfl, hpercent⟩
    · cases h

/-- With no backslash before it a character adds itself. -/
theorem eq_of_read_add {c : Char} {text : List Char} (h : read false c = .add text) :
    text = [c] := by
  rw [read] at h
  simp only [Bool.false_eq_true, if_false] at h
  split at h
  · cases h
  split at h
  · cases h
  · cases h
    rfl

/-- The text of an undecided backslash at the end of input. -/
def unfinished (escaping : Bool) : List Char :=
  if escaping then ['\\'] else []

/-- A character as written inside a span. -/
def writeChar (c : Char) : List Char :=
  if c = '%' ∨ c = '\\' then ['\\', c] else [c]

/-- The text as a span of its own. -/
def write (text : String) : String :=
  String.ofList ('%' :: text.toList.flatMap writeChar ++ ['%'])

end EventRules.Text.Span

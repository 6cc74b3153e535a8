import EventRules.Proofs.Grammar.Faults
import EventRules.Proofs.Number.Decimal
import Mathlib.Data.List.TakeDrop
import Mathlib.Data.List.TakeWhile

/-!
# `EventRules.Proofs.Condition.Numerals`: numbers and ranges as they are written

A numeral is read from the front of a text, and a literal is the whole of a
text but for blanks at its ends. `Numeral.Spells` says which characters are
a numeral, and `Literal.SpellsRange` which are a range.

* `Numeral.spells_of_read?` and `Numeral.read?_append`: what is read from
  the front is a numeral, and a numeral is read where it stands before
  something that it cannot go on with.
* `Literal.numeral?_eq_some_iff` and `Literal.bounds?_eq_some_iff`: so the
  literals are exactly the texts that are spelled so.

`Operator.readsExactly` says of the operators what that comes to: which
texts they take, what they make of them, and what an error points at. The
numbers that they hold are the doubles nearest to those that are spelled
(`Numeral.isRounded_toDouble`).
-/

set_option autoImplicit false

namespace EventRules

open Text

/-! ### Digits -/

/-- The characters are one digit or more. -/
structure IsDigits (cs : List Char) : Prop where
  ne_nil : cs ≠ []
  isDigit : ∀ c ∈ cs, isDigit c

/-- A numeral cannot go on with these characters: they do not begin with a
digit, nor with a point. -/
def EndsNumeral (rest : List Char) : Prop :=
  ∀ c ∈ rest.head?, isDigit c = false ∧ c ≠ '.'

theorem EndsNumeral.nil : EndsNumeral [] :=
  fun _ h => (Option.not_mem_none _ h).elim

theorem EndsNumeral.cons {c : Char} (hdigit : isDigit c = false) (hpoint : c ≠ '.')
    (rest : List Char) : EndsNumeral (c :: rest) := by
  intro d hd
  cases hd
  exact ⟨hdigit, hpoint⟩

/-- The digits in front of a text are all there are, up to the first other
character. -/
theorem span_isDigit_append {ds rest : List Char} (hds : ∀ d ∈ ds, isDigit d)
    (hrest : ∀ c ∈ rest.head?, isDigit c = false) : (ds ++ rest).span isDigit = (ds, rest) := by
  have hstop : rest.takeWhile isDigit = [] ∧ rest.dropWhile isDigit = rest := by
    cases rest with
    | nil => exact ⟨rfl, rfl⟩
    | cons c rest =>
      have hc : ¬ isDigit c := Bool.eq_false_iff.1 (hrest c rfl)
      exact ⟨List.takeWhile_cons_of_neg hc, List.dropWhile_cons_of_neg hc⟩
  rw [List.span_eq_takeWhile_dropWhile, List.takeWhile_append_of_pos hds,
    List.dropWhile_append_of_pos hds, hstop.1, hstop.2, List.append_nil]

theorem eq_append_of_span {text ds rest : List Char} (h : text.span isDigit = (ds, rest)) :
    text = ds ++ rest ∧ ∀ d ∈ ds, isDigit d := by
  rw [List.span_eq_takeWhile_dropWhile] at h
  cases h
  exact ⟨List.takeWhile_append_dropWhile.symm, fun d hd => List.mem_takeWhile_imp hd⟩

namespace Numeral

/-! ### Numerals -/

/-- How a sign is written. That of a number that is not negative may be left
out. -/
inductive SpellsSign : Bool → List Char → Prop
  | none : SpellsSign false []
  | plus : SpellsSign false ['+']
  | minus : SpellsSign true ['-']

/-- How the digits after the point are written, with the point if there are
any. -/
inductive SpellsFraction : List Char → List Char → Prop
  | none : SpellsFraction [] []
  | digits {ds : List Char} (h : IsDigits ds) : SpellsFraction ds ('.' :: ds)

/-- The characters are the numeral: a sign, one digit or more, and possibly
a point and one digit or more. -/
inductive Spells (numeral : Numeral) : List Char → Prop
  | mk {sign fraction : List Char} (hsign : SpellsSign numeral.negative sign)
      (hwhole : IsDigits numeral.whole) (hfraction : SpellsFraction numeral.fraction fraction) :
      Spells numeral (sign ++ numeral.whole ++ fraction)

/-- The sign is read before digits. -/
theorem readSign_append {negative : Bool} {sign : List Char} (h : SpellsSign negative sign)
    {d : Char} (hd : isDigit d) (rest : List Char) :
    readSign (sign ++ d :: rest) = (negative, d :: rest) := by
  cases h with
  | none =>
    -- A digit is no sign.
    rw [List.nil_append, readSign.eq_def]
    split
    · next heq =>
      cases heq
      cases hd
    · next heq =>
      cases heq
      cases hd
    · rfl
  | plus => rfl
  | minus => rfl

theorem spells_of_readSign {text rest : List Char} {negative : Bool}
    (h : readSign text = (negative, rest)) :
    ∃ sign, text = sign ++ rest ∧ SpellsSign negative sign := by
  rw [readSign.eq_def] at h
  split at h
  · cases h
    exact ⟨['+'], rfl, .plus⟩
  · cases h
    exact ⟨['-'], rfl, .minus⟩
  · cases h
    exact ⟨[], rfl, .none⟩

theorem readFraction_append {ds fraction rest : List Char} (h : SpellsFraction ds fraction)
    (hrest : EndsNumeral rest) : readFraction (fraction ++ rest) = (ds, rest) := by
  cases h with
  | none =>
    rw [List.nil_append, readFraction.eq_def]
    split
    · next heq => exact absurd rfl (hrest '.' rfl).2
    · rfl
  | digits hds =>
    obtain ⟨d, ds, rfl⟩ := List.exists_cons_of_ne_nil hds.ne_nil
    have hspan := span_isDigit_append hds.isDigit fun c hc => (hrest c hc).1
    rw [List.cons_append, readFraction, hspan]

/-- A point without digits after it is left where it is. -/
theorem spells_of_readFraction {text ds rest : List Char} (h : readFraction text = (ds, rest)) :
    ∃ fraction, text = fraction ++ rest ∧ SpellsFraction ds fraction := by
  rw [readFraction.eq_def] at h
  split at h
  · next rest' =>
    split at h
    · cases h
      exact ⟨[], rfl, .none⟩
    · next hnone =>
      obtain ⟨heq, hdigits⟩ := eq_append_of_span h
      have hne : ds ≠ [] := by
        rintro rfl
        exact hnone rest h
      exact ⟨'.' :: ds, by rw [heq]; rfl, .digits ⟨hne, hdigits⟩⟩
  · cases h
    exact ⟨[], rfl, .none⟩

/-- A numeral is read where it stands before something that it cannot go on
with. -/
theorem read?_append {numeral : Numeral} {cs rest : List Char} (h : numeral.Spells cs)
    (hrest : EndsNumeral rest) : read? (cs ++ rest) = some (numeral, rest) := by
  obtain ⟨hsign, hwhole, hfraction⟩ := h
  rename_i sign fraction
  obtain ⟨negative, whole, ds⟩ := numeral
  obtain ⟨d, digits, rfl⟩ := List.exists_cons_of_ne_nil hwhole.ne_nil
  have hd : isDigit d := hwhole.isDigit d List.mem_cons_self
  -- What comes after the digits does not begin with one.
  have hnext : ∀ c ∈ (fraction ++ rest).head?, isDigit c = false := by
    cases hfraction with
    | none => exact fun c hc => (hrest c hc).1
    | digits _ =>
      intro c hc
      cases hc
      rfl
  have hspan := span_isDigit_append hwhole.isDigit hnext
  have hread := readSign_append hsign hd (digits ++ (fraction ++ rest))
  have htext : sign ++ (d :: digits) ++ fraction ++ rest
      = sign ++ d :: (digits ++ (fraction ++ rest)) := by
    simp only [List.append_assoc, List.cons_append]
  rw [List.cons_append] at hspan
  rw [read?, htext, hread]
  simp only [hspan, readFraction_append hfraction hrest]

/-- What is read from the front of a text is a numeral. -/
theorem spells_of_read? {text rest : List Char} {numeral : Numeral}
    (h : read? text = some (numeral, rest)) : ∃ cs, text = cs ++ rest ∧ numeral.Spells cs := by
  rw [read?] at h
  cases hsign : readSign text with
  | mk negative unsigned =>
    simp only [hsign] at h
    obtain ⟨sign, htext, hspelled⟩ := spells_of_readSign hsign
    split at h
    · cases h
    · next whole following hne hspan =>
      obtain ⟨hunsigned, hdigits⟩ := eq_append_of_span hspan
      have hwhole : IsDigits whole := ⟨hne, hdigits⟩
      cases hfraction : readFraction following with
      | mk ds last =>
        simp only [hfraction] at h
        cases h
        obtain ⟨fraction, hfollowing, hspelled'⟩ := spells_of_readFraction hfraction
        refine ⟨sign ++ whole ++ fraction, ?_, .mk hspelled hwhole hspelled'⟩
        rw [htext, hunsigned, hfollowing]
        simp only [List.append_assoc]

/-- A numeral begins with a sign or a digit. -/
theorem Spells.exists_cons {numeral : Numeral} {cs : List Char} (h : numeral.Spells cs) :
    ∃ c rest, cs = c :: rest ∧ (isDigit c ∨ c = '+' ∨ c = '-') := by
  obtain ⟨hsign, hwhole, hfraction⟩ := h
  obtain ⟨negative, whole, ds⟩ := numeral
  obtain ⟨d, digits, rfl⟩ := List.exists_cons_of_ne_nil hwhole.ne_nil
  cases hsign with
  | none => exact ⟨d, _, rfl, .inl (hwhole.isDigit d List.mem_cons_self)⟩
  | plus => exact ⟨'+', _, rfl, .inr (.inl rfl)⟩
  | minus => exact ⟨'-', _, rfl, .inr (.inr rfl)⟩

end Numeral

namespace Literal

/-! ### Literals -/

/-- The whole of a text is a numeral, blanks at its ends aside. -/
theorem numeral?_eq_some_iff {text : String} {numeral : Numeral} :
    numeral? text = some numeral ↔ numeral.Spells (trimChars text.toList) := by
  rw [numeral?]
  constructor
  · intro h
    split at h
    · next hread =>
      cases h
      obtain ⟨cs, htext, hspells⟩ := Numeral.spells_of_read? hread
      rw [List.append_nil] at htext
      exact htext ▸ hspells
    · cases h
  · intro h
    have hread := Numeral.read?_append h .nil
    rw [List.append_nil] at hread
    rw [hread]

/-- A character around the bounds of a range is no part of a numeral. -/
theorem not_isPadding {c : Char} (h : isDigit c ∨ c = '+' ∨ c = '-') : isPadding c = false := by
  rcases h with hdigit | rfl | rfl
  · rw [Bool.eq_false_iff]
    intro hpadding
    simp only [isPadding, isIndent, isBreak, Bool.or_eq_true, decide_eq_true_eq] at hpadding
    rcases hpadding with (rfl | rfl) | (rfl | rfl) <;> cases hdigit
  · rfl
  · rfl

theorem endsNumeral_padding {padding : List Char} (hpadding : ∀ c ∈ padding, isPadding c)
    {rest : List Char} (hrest : EndsNumeral rest) : EndsNumeral (padding ++ rest) := by
  cases padding with
  | nil => exact hrest
  | cons c padding =>
    have hc : isPadding c := hpadding c List.mem_cons_self
    have hdigit : isDigit c = false := by
      rw [Bool.eq_false_iff]
      intro hdigit
      rw [not_isPadding (.inl hdigit)] at hc
      cases hc
    refine .cons hdigit ?_ _
    rintro rfl
    cases hc

/-- A numeral is read with the padding on either side. -/
theorem paddedNumeral?_append {numeral : Numeral} {cs before after : List Char} {c : Char}
    (h : numeral.Spells cs) (hbefore : ∀ c ∈ before, isPadding c)
    (hafter : ∀ c ∈ after, isPadding c) (hc : isPadding c = false) (rest : List Char)
    (hrest : EndsNumeral (c :: rest)) :
    paddedNumeral? (before ++ (cs ++ (after ++ c :: rest))) = some (numeral, c :: rest) := by
  have hread := Numeral.read?_append h (endsNumeral_padding hafter hrest)
  obtain ⟨d, ds, rfl, hd⟩ := h.exists_cons
  have hrest : (after ++ c :: rest).dropWhile isPadding = c :: rest := by
    rw [List.dropWhile_append_of_pos hafter, List.dropWhile_cons_of_neg (Bool.eq_false_iff.1 hc)]
  rw [paddedNumeral?, List.dropWhile_append_of_pos hbefore, List.cons_append,
    List.dropWhile_cons_of_neg (Bool.eq_false_iff.1 (not_isPadding hd)), ← List.cons_append, hread,
    Option.map_some]
  simp only [hrest]

theorem spells_of_paddedNumeral? {text rest : List Char} {numeral : Numeral}
    (h : paddedNumeral? text = some (numeral, rest)) :
    ∃ before cs after, text = before ++ (cs ++ (after ++ rest)) ∧ numeral.Spells cs
      ∧ (∀ c ∈ before, isPadding c) ∧ ∀ c ∈ after, isPadding c := by
  obtain ⟨⟨read, following⟩, hread, hpair⟩ := Option.map_eq_some_iff.1 h
  cases hpair
  obtain ⟨cs, hcs, hspells⟩ := Numeral.spells_of_read? hread
  refine ⟨text.takeWhile isPadding, cs, following.takeWhile isPadding, ?_, hspells,
    fun c hc => List.mem_takeWhile_imp hc, fun c hc => List.mem_takeWhile_imp hc⟩
  rw [List.takeWhile_append_dropWhile, ← hcs, List.takeWhile_append_dropWhile]

/-- The characters are the range between the numerals, in brackets and with a
comma, each numeral with padding on either side. -/
inductive SpellsRange (lo hi : Numeral) : List Char → Prop
  | mk {first second third fourth low high : List Char} (hlow : lo.Spells low)
      (hhigh : hi.Spells high) (hfirst : ∀ c ∈ first, isPadding c)
      (hsecond : ∀ c ∈ second, isPadding c) (hthird : ∀ c ∈ third, isPadding c)
      (hfourth : ∀ c ∈ fourth, isPadding c) :
      SpellsRange lo hi ('[' :: (first ++ (low ++ (second ++
        ',' :: (third ++ (high ++ (fourth ++ [']'])))))))

theorem after?_eq_some_iff {c : Char} {text rest : List Char} :
    after? c text = some rest ↔ text = c :: rest := by
  cases text with
  | nil => simp [after?]
  | cons d text =>
    rw [after?, Option.ite_none_right_eq_some, Option.some.injEq, List.cons.injEq]

/-- The whole of a text is a range, blanks at its ends aside. -/
theorem bounds?_eq_some_iff {text : String} {lo hi : Numeral} :
    bounds? text = some (lo, hi) ↔ SpellsRange lo hi (trimChars text.toList) := by
  simp only [bounds?, Option.bind_eq_bind, Option.bind_eq_some_iff, Prod.exists,
    after?_eq_some_iff]
  constructor
  · rintro ⟨_, htext, low, _, hlow, _, rfl, high, _, hhigh, rest, rfl, hend⟩
    obtain ⟨hnil, hpair⟩ := Option.ite_none_right_eq_some.1 hend
    cases hpair
    obtain ⟨first, cs, second, rfl, hcs, hfirst, hsecond⟩ := spells_of_paddedNumeral? hlow
    obtain ⟨third, ds, fourth, rfl, hds, hthird, hfourth⟩ := spells_of_paddedNumeral? hhigh
    rw [htext, List.isEmpty_iff.1 hnil]
    exact .mk hcs hds hfirst hsecond hthird hfourth
  · intro h
    generalize trimChars text.toList = cs at h
    obtain ⟨hlow, hhigh, hfirst, hsecond, hthird, hfourth⟩ := h
    exact ⟨_, rfl, lo, _, paddedNumeral?_append hlow hfirst hsecond rfl _ (.cons rfl (by decide) _),
      _, rfl, hi, _, paddedNumeral?_append hhigh hthird hfourth rfl _ (.cons rfl (by decide) _),
      [], rfl, rfl⟩

end Literal

/-! ### Doubles -/

theorem Double.exists_rank? {x : Double} (h : x ≠ .nan) : ∃ rank, x.rank? = some rank := by
  cases x with
  | nan => exact absurd rfl h
  | infinite negative => exact ⟨_, rfl⟩
  | finite negative quanta hquanta => exact ⟨_, rfl⟩

/-- Of two numbers one is at most the other. -/
theorem Double.lt_eq_not_le {x y : Double} (hx : x ≠ .nan) (hy : y ≠ .nan) :
    y.lt x = !x.le y := by
  obtain ⟨rank, hrank⟩ := exists_rank? hx
  obtain ⟨other, hother⟩ := exists_rank? hy
  simp only [lt, le, compareRanks, hrank, hother]
  rw [Bool.eq_iff_iff]
  simp

/-- A numeral is a number, an infinity if it is out of bounds. -/
theorem Numeral.toDouble_ne_nan (numeral : Numeral) : numeral.toDouble ≠ .nan :=
  numeral.isRounded_toDouble.ne_nan

namespace Comparator

/-- The comparator holds numbers, and a range that is not empty. -/
def HoldsNumbers : Comparator → Prop
  | number _ right => right ≠ .nan
  | inRange lo hi => lo ≠ .nan ∧ hi ≠ .nan ∧ lo.le hi
  | startsWith _ | endsWith _ | contains _ | is _ => True

end Comparator

namespace Literal

theorem number_eq_ok_iff {text : String} {x : Double} :
    number text = .ok x ↔ ∃ numeral : Numeral, numeral.Spells (trimChars text.toList)
      ∧ x = numeral.toDouble := by
  simp only [← numeral?_eq_some_iff, number]
  cases numeral? text with
  | none => simp
  | some numeral => simp [eq_comm]

theorem range_eq_ok_iff {text : String} {bounds : Double × Double} :
    range text = .ok bounds ↔ ∃ lo hi, SpellsRange lo hi (trimChars text.toList)
      ∧ lo.toDouble.le hi.toDouble ∧ bounds = (lo.toDouble, hi.toDouble) := by
  simp only [← bounds?_eq_some_iff, range]
  cases bounds? text with
  | none => simp
  | some pair =>
    obtain ⟨lo, hi⟩ := pair
    have hlt := Double.lt_eq_not_le lo.toDouble_ne_nan hi.toDouble_ne_nan
    cases hle : lo.toDouble.le hi.toDouble with
    | true =>
      rw [hle] at hlt
      simp only [hlt]
      constructor
      · rintro ⟨⟩
        exact ⟨lo, hi, rfl, hle, rfl⟩
      · rintro ⟨_, _, hpair, -, rfl⟩
        cases hpair
        rfl
    | false =>
      rw [hle] at hlt
      simp only [hlt]
      constructor
      · rintro ⟨⟩
      · rintro ⟨_, _, hpair, hle', -⟩
        cases hpair
        rw [hle] at hle'
        cases hle'

/-- An error about a number points at the whole text. -/
theorem number_failsWith (text : String) : FailsWith (·.word = some text) (number text) := by
  rw [number]
  split
  · exact .ok _
  · exact .error rfl

theorem range_failsWith (text : String) : FailsWith (·.word = some text) (range text) := by
  rw [range]
  split
  · exact .error rfl
  · split
    · exact .error rfl
    · exact .ok _

end Literal

namespace Operator

/-! ### Operators -/

/-- What the operators take a text for that is a number or a range, and what
they do with others. -/
structure ReadsExactly (text : String) : Prop where
  /-- The numerical relations take numerals, blanks at the ends aside. -/
  numbers : ∀ relation comparator, (number relation).read text = .ok comparator
    ↔ ∃ numeral : Numeral, numeral.Spells (trimChars text.toList)
      ∧ comparator = .number relation numeral.toDouble
  /-- A range is taken whose first number is at most the second. -/
  ranges : ∀ comparator, inRange.read text = .ok comparator
    ↔ ∃ lo hi, Literal.SpellsRange lo hi (trimChars text.toList)
      ∧ lo.toDouble.le hi.toDouble ∧ comparator = .inRange lo.toDouble hi.toDouble
  /-- A numeral stands for the double nearest to the number that it denotes, or for
  an infinity. -/
  rounds : ∀ numeral : Numeral,
    numeral.toDouble.IsRounded numeral.negative numeral.value
  /-- Whatever is made of the text holds numbers. -/
  holdsNumbers : ∀ operator comparator, read operator text = .ok comparator →
    comparator.HoldsNumbers
  /-- An error points at the whole text. -/
  word : ∀ operator error, read operator text = .error error → error.word = some text

theorem read_number_eq_ok_iff {relation : Relation} {text : String} {comparator : Comparator} :
    (number relation).read text = .ok comparator
      ↔ ∃ numeral : Numeral, numeral.Spells (trimChars text.toList)
        ∧ comparator = .number relation numeral.toDouble := by
  simp only [read, map_eq_ok_iff, Literal.number_eq_ok_iff]
  constructor
  · rintro ⟨_, ⟨numeral, hspells, rfl⟩, rfl⟩
    exact ⟨numeral, hspells, rfl⟩
  · rintro ⟨numeral, hspells, rfl⟩
    exact ⟨_, ⟨numeral, hspells, rfl⟩, rfl⟩

theorem read_inRange_eq_ok_iff {text : String} {comparator : Comparator} :
    inRange.read text = .ok comparator
      ↔ ∃ lo hi, Literal.SpellsRange lo hi (trimChars text.toList)
        ∧ lo.toDouble.le hi.toDouble ∧ comparator = .inRange lo.toDouble hi.toDouble := by
  simp only [read, map_eq_ok_iff, Literal.range_eq_ok_iff]
  constructor
  · rintro ⟨_, ⟨lo, hi, hspells, hle, rfl⟩, rfl⟩
    exact ⟨lo, hi, hspells, hle, rfl⟩
  · rintro ⟨lo, hi, hspells, hle, rfl⟩
    exact ⟨_, ⟨lo, hi, hspells, hle, rfl⟩, rfl⟩

theorem holdsNumbers_of_read {operator : Operator} {text : String} {comparator : Comparator}
    (h : operator.read text = .ok comparator) : comparator.HoldsNumbers := by
  cases operator with
  | number relation =>
    obtain ⟨numeral, -, rfl⟩ := read_number_eq_ok_iff.1 h
    exact numeral.toDouble_ne_nan
  | inRange =>
    obtain ⟨lo, hi, -, hle, rfl⟩ := read_inRange_eq_ok_iff.1 h
    exact ⟨lo.toDouble_ne_nan, hi.toDouble_ne_nan, hle⟩
  | _ =>
    cases h
    trivial

theorem read_failsWith_word (operator : Operator) (text : String) :
    FailsWith (·.word = some text) (operator.read text) := by
  cases operator with
  | number relation => exact (Literal.number_failsWith text).map _
  | inRange => exact (Literal.range_failsWith text).map _
  | _ => exact .ok _

/-- The operators take exactly the numbers and the ranges. -/
theorem readsExactly (text : String) : ReadsExactly text where
  numbers _ _ := read_number_eq_ok_iff
  ranges _ := read_inRange_eq_ok_iff
  rounds := Numeral.isRounded_toDouble
  holdsNumbers _ _ := holdsNumbers_of_read
  word operator := read_failsWith_word operator text

/-- A range with padding, between blanks that are none, one that has its bounds the
wrong way round, and a point without digits after it. -/
theorem readsExactly_padded :
    (∃ comparator, inRange.read "\x0b[ -5 ,\r\n+1.50\t]\x0c" = .ok comparator
        ∧ comparator.HoldsNumbers)
      ∧ (∃ error, inRange.read "[5,1]" = .error error ∧ error.word = some "[5,1]")
      ∧ ∃ error, (number .less).read " 1." = .error error ∧ error.word = some " 1." := by
  refine ⟨?_, ?_, ?_⟩
  · have hspells : Literal.SpellsRange ⟨true, ['5'], []⟩ ⟨false, ['1'], ['5', '0']⟩
        (trimChars "\x0b[ -5 ,\r\n+1.50\t]\x0c".toList) :=
      Literal.bounds?_eq_some_iff.1 (by decide +kernel)
    have hread := ((readsExactly "\x0b[ -5 ,\r\n+1.50\t]\x0c").ranges _).2
      ⟨_, _, hspells, by decide +kernel, rfl⟩
    exact ⟨_, hread, (readsExactly _).holdsNumbers _ _ hread⟩
  · have hbounds : Literal.bounds? "[5,1]" = some (⟨false, ['5'], []⟩, ⟨false, ['1'], []⟩) := by
      decide +kernel
    cases hread : inRange.read "[5,1]" with
    | error error => exact ⟨error, rfl, (readsExactly _).word _ _ hread⟩
    | ok comparator =>
      -- The numerals would be those that are spelled, and the first is greater.
      obtain ⟨lo, hi, hspells, hle, -⟩ := ((readsExactly _).ranges _).1 hread
      rw [← Literal.bounds?_eq_some_iff, hbounds] at hspells
      cases hspells
      exact absurd hle (by decide +kernel)
  · have hread : (number .less).read " 1." = .error ((SyntaxError.of .noNumber).near " 1.") := rfl
    exact ⟨_, hread, (readsExactly _).word _ _ hread⟩

end Operator

end EventRules

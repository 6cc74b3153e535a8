import EventRules.Number.Shortest
import EventRules.Proofs.Condition.Numerals
import EventRules.Proofs.Number.Rounding

/-!
# `EventRules.Proofs.Number.Digits`: a double reads back from its text

The text of a finite double is a numeral, and the double nearest to it is the
one it was written for.

* `readsBack_shortest`: the search for the fewest digits looks at candidates
  that read back only, and falls back on all the digits, which do so because a
  short number of quanta is not rounded.
* `spells_positional`: wherever the point goes, the numeral is the candidate.
* `exists_spells_text` puts them together.

Both sides of a comparison are fractions with large denominators. They are never
divided out: `nearestQuanta_mul_right` takes one form to the other.
-/

set_option autoImplicit false

namespace EventRules

namespace Double

/-! ### Candidates -/

theorem unit_eq : unit = 1 <<< places := by
  delta unit places
  with_reducible rfl

theorem unitsPerQuantum_eq : unitsPerQuantum = Nat.pow 5 places := by
  delta unitsPerQuantum
  with_reducible rfl

/-- Ten to the power of the number of places is the number of quanta in one
times the number of units in a quantum. -/
theorem pow_places : Nat.pow 10 places = unit * unitsPerQuantum := by
  rw [unit_eq, unitsPerQuantum_eq, Nat.one_shiftLeft]
  generalize places = n
  exact Nat.mul_pow 2 5 n

theorem unitsPerQuantum_pos : 0 < unitsPerQuantum := by
  rw [unitsPerQuantum_eq]
  generalize places = n
  exact Nat.pow_pos (by decide)

/-- A candidate that is picked reads back. -/
theorem readsBack_of_pick {quanta scale digits : Nat} (h : pick quanta scale = some digits) :
    readsBack quanta (digits * Nat.pow 10 scale) := by
  simp only [pick] at h
  generalize Nat.pow 10 scale = step at h ⊢
  generalize quanta * unitsPerQuantum / step = low at h
  split at h
  · next hlow =>
    split at h
    · next hhigh =>
      cases h
      split
      · exact hhigh
      · exact hlow
    · cases h
      exact hlow
  · split at h
    · next hhigh =>
      cases h
      exact hhigh
    · cases h

/-- All the digits read back. -/
theorem readsBack_exact {quanta : Nat} (h : IsShort quanta) :
    readsBack quanta (quanta * unitsPerQuantum * Nat.pow 10 0) := by
  -- The number of units in a quantum is too large to compute with.
  have hexact : ∀ {den : Nat}, 0 < den → nearestQuanta (quanta * den * Nat.pow 10 0) den = quanta := by
    intro den hden
    show nearestQuanta (quanta * den * 1) den = quanta
    rw [Nat.mul_one, nearestQuanta_mul_self hden h]
  exact decide_eq_true (hexact unitsPerQuantum_pos)

/-- What holds of the candidates and of all the digits holds of what is
chosen. -/
theorem shortestFrom_induction {candidate : Nat → Option Nat} {all : Nat} {p : Nat → Nat → Prop}
    (hall : p all 0) (hcandidate : ∀ scale digits, candidate scale = some digits → p digits scale)
    (scale : Nat) :
    p (shortestFrom candidate all scale).1 (shortestFrom candidate all scale).2 := by
  induction scale with
  | zero => exact hall
  | succ scale ih =>
    rw [shortestFrom]
    cases hdigits : candidate (scale + 1) with
    | none => exact ih
    | some digits => exact hcandidate _ digits hdigits

theorem readsBack_shortest {quanta : Nat} (h : IsShort quanta) :
    readsBack quanta ((shortest quanta).1 * Nat.pow 10 (shortest quanta).2) :=
  shortestFrom_induction (p := fun digits scale => readsBack quanta (digits * Nat.pow 10 scale))
    (readsBack_exact h) (fun _ _ => readsBack_of_pick) _

end Double

/-! ### Digits -/

theorem digitsValue_toDigits (n : Nat) : digitsValue (Nat.toDigits 10 n) = n :=
  Nat.ofDigitChars_toDigits (by decide) (by decide)

/-- Zeros in front of digits do not count. -/
theorem digitsValue_zeros_append (n : Nat) (digits : List Char) :
    digitsValue (List.replicate n '0' ++ digits) = digitsValue digits := by
  have hzeros : digitsValue (List.replicate n '0') = 10 ^ n * 0 := Nat.ofDigitChars_replicate_zero
  rw [digitsValue_append, hzeros]
  rfl

/-- A zero at the end of digits makes them worth ten times as much. -/
theorem digitsValue_append_zeros (digits : List Char) (n : Nat) :
    digitsValue (digits ++ List.replicate n '0') = digitsValue digits * 10 ^ n := by
  rw [digitsValue_append, Nat.ofDigitChars_replicate_zero, Nat.mul_comm]

theorem isDigits_toDigits (n : Nat) : IsDigits (Nat.toDigits 10 n) where
  ne_nil := Nat.toDigits_ne_nil
  isDigit c hc := by
    have hdigit := Nat.isDigit_of_mem_toDigits (by decide) (by decide) hc
    simpa [Char.isDigit, EventRules.isDigit, Char.le_def] using hdigit

theorem IsDigits.append {first second : List Char} (h : IsDigits first)
    (hsecond : ∀ c ∈ second, EventRules.isDigit c) : IsDigits (first ++ second) where
  ne_nil := List.append_ne_nil_of_left_ne_nil h.ne_nil _
  isDigit := List.forall_mem_append.2 ⟨h.isDigit, hsecond⟩

theorem isDigit_of_mem_zeros {n : Nat} : ∀ c ∈ List.replicate n '0', isDigit c := by
  intro c hc
  rw [List.eq_of_mem_replicate hc]
  rfl

theorem IsDigits.zeros_append {digits : List Char} (h : IsDigits digits) (n : Nat) :
    IsDigits (List.replicate n '0' ++ digits) where
  ne_nil := List.append_ne_nil_of_right_ne_nil _ h.ne_nil
  isDigit := List.forall_mem_append.2 ⟨isDigit_of_mem_zeros, h.isDigit⟩

theorem IsDigits.take {digits : List Char} (h : IsDigits digits) {n : Nat} (hn : n ≠ 0) :
    IsDigits (digits.take n) where
  ne_nil := by
    rw [Ne, List.take_eq_nil_iff, not_or]
    exact ⟨hn, h.ne_nil⟩
  isDigit c hc := h.isDigit c (List.mem_of_mem_take hc)

theorem IsDigits.drop {digits : List Char} (h : IsDigits digits) {n : Nat}
    (hn : n < digits.length) : IsDigits (digits.drop n) where
  ne_nil := by
    rw [← List.length_pos_iff, List.length_drop]
    omega
  isDigit c hc := h.isDigit c (List.mem_of_mem_drop hc)

theorem isDigits_zero : IsDigits ['0'] :=
  ⟨List.cons_ne_nil _ _, List.forall_mem_singleton.2 rfl⟩

/-! ### Texts -/

/-- A numeral is written as its sign before its digits. -/
theorem Numeral.spells_append {negative : Bool} {sign whole fraction text : List Char}
    (hsign : SpellsSign negative sign) (hwhole : IsDigits whole)
    (hfraction : SpellsFraction fraction text) :
    Spells ⟨negative, whole, fraction⟩ (sign ++ (whole ++ text)) := by
  rw [← List.append_assoc]
  exact .mk hsign hwhole hfraction

namespace Double

/-- Wherever the point goes, the numeral is the candidate. -/
theorem exists_spells_positional {negative : Bool} {sign digits : List Char}
    (hsign : Numeral.SpellsSign negative sign) (hdigits : IsDigits digits) (scale : Nat) :
    ∃ numeral : Numeral, numeral.Spells (sign ++ positional digits scale)
      ∧ numeral.negative = negative
      ∧ digitsValue (numeral.whole ++ numeral.fraction) * Nat.pow 10 places
          = digitsValue digits * Nat.pow 10 scale * Nat.pow 10 numeral.fraction.length := by
  -- The places after the point make up for what the scale lacks.
  have hscale : ∀ {m k n : Nat}, m + k = n → digitsValue digits * Nat.pow 10 n
      = digitsValue digits * Nat.pow 10 m * Nat.pow 10 k := by
    rintro m k n rfl
    rw [Nat.mul_assoc]
    exact congrArg _ (Nat.pow_add 10 m k)
  simp only [positional]
  generalize places = places
  split
  · next hle =>
    have hwhole : IsDigits (digits ++ List.replicate (scale - places) '0') :=
      hdigits.append isDigit_of_mem_zeros
    have hspells := Numeral.spells_append hsign hwhole .none
    have hten : digitsValue digits * Nat.pow 10 (scale - places) * Nat.pow 10 places
        = digitsValue digits * Nat.pow 10 scale := (hscale (by omega)).symm
    rw [List.append_nil] at hspells
    refine ⟨_, hspells, rfl, ?_⟩
    rw [List.append_nil, digitsValue_append_zeros]
    exact hten.trans (Nat.mul_one _).symm
  · next hlt =>
    have hten : digitsValue digits * Nat.pow 10 places
        = digitsValue digits * Nat.pow 10 scale * Nat.pow 10 (places - scale) := hscale (by omega)
    split
    · next hshort =>
      have hlength : (List.replicate (places - scale - digits.length) '0' ++ digits).length
          = places - scale := by
        rw [List.length_append, List.length_replicate]
        omega
      have hfraction := hdigits.zeros_append (places - scale - digits.length)
      have hspells := Numeral.spells_append hsign isDigits_zero (.digits hfraction)
      refine ⟨_, hspells, rfl, ?_⟩
      have hvalue := digitsValue_zeros_append (places - scale - digits.length + 1) digits
      rw [List.replicate_succ] at hvalue
      rw [hlength]
      exact (congrArg (· * Nat.pow 10 places) hvalue).trans hten
    · next hlong =>
      have hlength : (digits.drop (digits.length - (places - scale))).length = places - scale := by
        rw [List.length_drop]
        omega
      have hwhole : IsDigits (digits.take (digits.length - (places - scale))) :=
        hdigits.take (by omega)
      have hfraction : IsDigits (digits.drop (digits.length - (places - scale))) :=
        hdigits.drop (by omega)
      refine ⟨_, Numeral.spells_append hsign hwhole (.digits hfraction), rfl, ?_⟩
      rw [List.take_append_drop, hlength]
      exact hten

/-- A numeral that is as large as a candidate that reads back is the double. -/
theorem ofQuotient_of_readsBack {quanta units num decimals : Nat} (h : Representable quanta)
    (hreads : readsBack quanta units)
    (hnum : num * Nat.pow 10 places = units * Nat.pow 10 decimals) (negative : Bool) :
    ofQuotient negative num (Nat.pow 10 decimals) = .finite negative quanta h := by
  have hpow : 0 < Nat.pow 10 decimals := Nat.pow_pos (by decide)
  have hnearest : nearestQuanta (num * unit) (Nat.pow 10 decimals) = quanta := by
    calc nearestQuanta (num * unit) (Nat.pow 10 decimals)
        = nearestQuanta (num * unit * unitsPerQuantum) (Nat.pow 10 decimals * unitsPerQuantum) :=
          (nearestQuanta_mul_right unitsPerQuantum_pos _ _).symm
      _ = nearestQuanta (units * Nat.pow 10 decimals) (unitsPerQuantum * Nat.pow 10 decimals) := by
          rw [Nat.mul_assoc, ← pow_places, hnum, Nat.mul_comm (Nat.pow 10 decimals)]
      _ = nearestQuanta units unitsPerQuantum := nearestQuanta_mul_right hpow _ _
      _ = quanta := decide_eq_true_eq.mp hreads
  subst hnearest
  simp only [ofQuotient, dif_pos h.1]

/-- The text of a finite double is a numeral that denotes it. -/
theorem exists_spells_text {negative : Bool} {quanta : Nat} (h : Representable quanta) :
    ∃ numeral : Numeral, numeral.Spells (finite negative quanta h).text.toList
      ∧ numeral.toDouble = .finite negative quanta h := by
  obtain ⟨sign, htext, hsign⟩ : ∃ sign, (finite negative quanta h).text.toList
      = sign ++ quantaText quanta ∧ Numeral.SpellsSign negative sign := by
    cases negative with
    | false => exact ⟨[], String.toList_ofList, .none⟩
    | true => exact ⟨['-'], String.toList_ofList, .minus⟩
  rw [htext, quantaText]
  split
  · next hzero =>
    subst hzero
    have hspells := Numeral.spells_append hsign isDigits_zero .none
    have hvalue : 0 * Nat.pow 10 places = 0 * unitsPerQuantum * Nat.pow 10 0 * Nat.pow 10 0 := by
      simp only [Nat.zero_mul]
    exact ⟨_, hspells, ofQuotient_of_readsBack h (readsBack_exact h.2) hvalue _⟩
  · next hne =>
    have hdigits := isDigits_toDigits (shortest quanta).1
    obtain ⟨numeral, hspells, rfl, hvalue⟩ :=
      exists_spells_positional hsign hdigits (shortest quanta).2
    rw [digitsValue_toDigits] at hvalue
    exact ⟨numeral, hspells, ofQuotient_of_readsBack h (readsBack_shortest h.2) hvalue _⟩

end Double

end EventRules

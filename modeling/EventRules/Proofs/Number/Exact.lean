import EventRules.Proofs.Number.Rounding
import Mathlib.Algebra.Order.Field.Basic
import Mathlib.Algebra.Order.Field.Rat
import Mathlib.Data.Rat.Cast.Order
import Mathlib.Order.WithBotTop
import Mathlib.Tactic.FieldSimp

/-!
# `EventRules.Proofs.Number.Exact`: the exact value of a double

A double that is a number is a rational number or an infinity, `Double.value?`.
The doubles are compared, rounded to and taken as integers by way of their
quanta, and what follows says what that means for their exact values.

* `compareRanks_iff`: the order of the doubles is that of their exact values.
  `le_iff`, `lt_iff` and `eq_iff` are cases of it.
* `toInt?_eq_some_iff`: a double is taken as the integer that it equals.
* `isRounded_ofQuotient`: a quotient is taken as the double nearest to it, and as
  an infinity from half a step above the greatest double.
* `isNearest_ofInt`: an integer is taken as the double nearest to it, and
  `hasValue_ofInt` as one that equals it if 53 bits suffice.
-/

set_option autoImplicit false

namespace EventRules.Double

/-! ### Exact values -/

theorem shiftLeft_pos {m : Nat} (h : 0 < m) (k : Nat) : 0 < m <<< k := by
  rw [Nat.shiftLeft_eq]
  exact Nat.mul_pos h (Nat.two_pow_pos k)

theorem unit_pos : 0 < unit :=
  shiftLeft_pos Nat.one_pos 1074

/-- The number that so many quanta come to. -/
def ratio (quanta : Int) : ℚ :=
  quanta / unit

/-- The exact value of the double, if it is a number. -/
def value? : Double → Option (WithBotTop ℚ)
  | nan => none
  | infinite true => some ⊥
  | infinite false => some ⊤
  | finite negative quanta _ => some (ratio (signed negative quanta))

/-- The double is finite and equals the number. -/
def HasValue (x : Double) (value : ℚ) : Prop :=
  x.value? = some ↑value

theorem HasValue.unique {x : Double} {value other : ℚ} (h : x.HasValue value)
    (h' : x.HasValue other) : value = other := by
  rw [HasValue, h, Option.some_inj] at h'
  exact WithBotTop.coe_injective h'

theorem cast_unit_pos : (0 : ℚ) < unit :=
  Nat.cast_pos.2 unit_pos

theorem ratio_lt_ratio {quanta other : Int} (h : quanta < other) : ratio quanta < ratio other :=
  div_lt_div_of_pos_right (Int.cast_lt.2 h) cast_unit_pos

theorem ratio_eq_intCast_iff {quanta n : Int} : ratio quanta = n ↔ quanta = n * unit := by
  rw [ratio, div_eq_iff cast_unit_pos.ne']
  exact_mod_cast Iff.rfl

/-! ### Order -/

/-- The place is one of a double. -/
def IsRank (rank : Int) : Prop :=
  -bound ≤ rank ∧ rank ≤ bound

/-- What stands at a place in the order of the doubles. -/
def atRank (rank : Int) : WithBotTop ℚ :=
  -- The infinities have the bounds for ranks, and no finite double reaches them.
  if rank ≤ -bound then ⊥ else if (bound : Int) ≤ rank then ⊤ else ratio rank

theorem atRank_lt_of_lt {a b : Int} (ha : IsRank a) (hb : IsRank b) (h : a < b) :
    atRank a < atRank b := by
  obtain ⟨ha, -⟩ := ha
  obtain ⟨-, hb⟩ := hb
  have hbelow : ¬ (bound : Int) ≤ a := by omega
  have habove : ¬ b ≤ -(bound : Int) := by omega
  rw [atRank, atRank, if_neg hbelow, if_neg habove]
  split
  · split
    · exact bot_lt_top
    · exact bot_lt_iff_ne_bot.2 (WithBotTop.coe_ne_bot _)
  · split
    · exact lt_top_iff_ne_top.2 (WithBotTop.coe_ne_top _)
    · exact WithBotTop.coe_lt_coe.2 (ratio_lt_ratio h)

theorem atRank_lt_iff {a b : Int} (ha : IsRank a) (hb : IsRank b) :
    atRank a < atRank b ↔ a < b := by
  refine ⟨fun h => ?_, atRank_lt_of_lt ha hb⟩
  rcases Int.lt_trichotomy a b with hlt | rfl | hgt
  · exact hlt
  · exact absurd h (lt_irrefl _)
  · exact absurd h (atRank_lt_of_lt hb ha hgt).not_gt

theorem atRank_le_iff {a b : Int} (ha : IsRank a) (hb : IsRank b) :
    atRank a ≤ atRank b ↔ a ≤ b := by
  rw [← not_lt, atRank_lt_iff hb ha, Int.not_lt]

theorem atRank_eq_iff {a b : Int} (ha : IsRank a) (hb : IsRank b) :
    atRank a = atRank b ↔ a = b := by
  rw [le_antisymm_iff, atRank_le_iff ha hb, atRank_le_iff hb ha]
  omega

theorem bound_pos : 0 < bound :=
  shiftLeft_pos (by decide) maxPlace

theorem isRank_signed {negative : Bool} {magnitude : Nat} (h : magnitude ≤ bound) :
    IsRank (signed negative magnitude) := by
  unfold IsRank signed
  split <;> omega

theorem isRank_of_rank? {x : Double} {rank : Int} (h : x.rank? = some rank) : IsRank rank := by
  cases x with
  | nan => cases h
  | infinite negative =>
    cases h
    exact isRank_signed (Nat.le_refl bound)
  | finite negative quanta hquanta =>
    cases h
    exact isRank_signed (Nat.le_of_lt hquanta.1)

/-- The exact value is that of the place in the order. -/
theorem value?_eq_map_rank? (x : Double) : x.value? = x.rank?.map atRank := by
  have hpos := bound_pos
  cases x with
  | nan => rfl
  | infinite negative =>
    cases negative with
    | true =>
      have hle : signed true bound ≤ -bound := le_rfl
      rw [rank?, Option.map_some, atRank, if_pos hle, value?]
    | false =>
      have hlow : ¬ signed false bound ≤ -bound := by
        simp only [signed, Bool.false_eq_true, if_false]
        omega
      have hhigh : (bound : Int) ≤ signed false bound := le_rfl
      rw [rank?, Option.map_some, atRank, if_neg hlow, if_pos hhigh, value?]
  | finite negative quanta hquanta =>
    -- The rank is strictly between the bounds.
    have hlt := hquanta.1
    have hlow : ¬ signed negative quanta ≤ -bound := by
      cases negative <;> simp only [signed, if_true, Bool.false_eq_true, if_false] <;> omega
    have hhigh : ¬ (bound : Int) ≤ signed negative quanta := by
      cases negative <;> simp only [signed, if_true, Bool.false_eq_true, if_false] <;> omega
    rw [rank?, Option.map_some, atRank, if_neg hlow, if_neg hhigh, value?]

/-- A comparison of ranks is one of exact values, if the order that it tests for
is kept where the order is. -/
theorem compareRanks_iff {test : Int → Int → Bool}
    {r : WithBotTop ℚ → WithBotTop ℚ → Prop}
    (h : ∀ a b, IsRank a → IsRank b → (test a b ↔ r (atRank a) (atRank b))) {x y : Double} :
    compareRanks test x y ↔ ∃ p q, x.value? = some p ∧ y.value? = some q ∧ r p q := by
  rw [value?_eq_map_rank?, value?_eq_map_rank?, compareRanks]
  cases hx : x.rank? with
  | none => exact iff_of_false nofun nofun
  | some a =>
    cases hy : y.rank? with
    | none => exact iff_of_false nofun nofun
    | some b =>
      have hab := h a b (isRank_of_rank? hx) (isRank_of_rank? hy)
      constructor
      · exact fun htest => ⟨_, _, rfl, rfl, hab.1 htest⟩
      · rintro ⟨p, q, hp, hq, hr⟩
        cases hp
        cases hq
        exact hab.2 hr

theorem le_iff {x y : Double} :
    x.le y ↔ ∃ p q, x.value? = some p ∧ y.value? = some q ∧ p ≤ q :=
  compareRanks_iff fun a b ha hb => by rw [decide_eq_true_iff, atRank_le_iff ha hb]

theorem lt_iff {x y : Double} :
    x.lt y ↔ ∃ p q, x.value? = some p ∧ y.value? = some q ∧ p < q :=
  compareRanks_iff fun a b ha hb => by rw [decide_eq_true_iff, atRank_lt_iff ha hb]

theorem eq_iff {x y : Double} :
    x.eq y ↔ ∃ p q, x.value? = some p ∧ y.value? = some q ∧ p = q :=
  compareRanks_iff fun a b ha hb => by rw [decide_eq_true_iff, atRank_eq_iff ha hb]

/-! ### Integers -/

theorem natAbs_signed (negative : Bool) (magnitude : Nat) :
    (signed negative magnitude).natAbs = magnitude := by
  cases negative <;> simp only [signed, if_true, Bool.false_eq_true, if_false] <;> omega

theorem signed_mul (negative : Bool) (magnitude factor : Nat) :
    signed negative (magnitude * factor) = signed negative magnitude * factor := by
  cases negative with
  | true =>
    show -((magnitude * factor : Nat) : Int) = -(magnitude : Int) * factor
    rw [Nat.cast_mul, neg_mul]
  | false => exact Nat.cast_mul magnitude factor

theorem signed_natAbs (n : Int) : signed (n < 0) n.natAbs = n := by
  by_cases hn : n < 0
  · simp only [signed, hn, decide_true, if_true]
    omega
  · simp only [signed, hn, decide_false, Bool.false_eq_true, if_false]
    omega

theorem hasValue_finite {negative : Bool} {quanta : Nat} {h : Representable quanta} {q : ℚ} :
    (finite negative quanta h).HasValue q ↔ ratio (signed negative quanta) = q := by
  rw [HasValue, value?, Option.some_inj, WithBotTop.coe_injective.eq_iff]

theorem not_hasValue_nan (q : ℚ) : ¬ nan.HasValue q :=
  nofun

theorem not_hasValue_infinite (negative : Bool) (q : ℚ) : ¬ (infinite negative).HasValue q := by
  cases negative <;> exact nofun

/-- A finite double equals an integer if its quanta make up so many units. -/
theorem hasValue_intCast {negative : Bool} {quanta : Nat} {h : Representable quanta} {n : Int} :
    (finite negative quanta h).HasValue n
      ↔ unit ∣ quanta ∧ signed negative (quanta / unit) = n := by
  rw [hasValue_finite, ratio_eq_intCast_iff]
  constructor
  · intro heq
    have hquanta : quanta = n.natAbs * unit := by
      rw [← natAbs_signed negative quanta, heq, Int.natAbs_mul, Int.natAbs_natCast]
    refine ⟨⟨n.natAbs, by rw [hquanta, Nat.mul_comm]⟩, ?_⟩
    rw [hquanta, signed_mul] at heq
    rw [hquanta, Nat.mul_div_cancel _ unit_pos]
    exact Int.eq_of_mul_eq_mul_right (Int.natCast_ne_zero.2 unit_pos.ne') heq
  · rintro ⟨⟨k, rfl⟩, rfl⟩
    rw [Nat.mul_div_cancel_left _ unit_pos, Nat.mul_comm, signed_mul]

/-- A double is taken as the integer that it equals. -/
theorem toInt?_eq_some_iff {x : Double} {n : Int64} : x.toInt? = some n ↔ x.HasValue n.toInt := by
  cases x with
  | nan => exact iff_of_false nofun (not_hasValue_nan _)
  | infinite negative => exact iff_of_false nofun (not_hasValue_infinite negative _)
  | finite negative quanta h =>
    rw [hasValue_intCast, toInt?]
    generalize signed negative (quanta / unit) = m
    constructor
    · intro heq
      split at heq
      · next hin =>
        cases heq
        exact ⟨hin.1, (Int64.toInt_ofInt_of_le hin.2.1 (Int.lt_add_one_of_le hin.2.2)).symm⟩
      · cases heq
    · rintro ⟨hdvd, rfl⟩
      rw [if_pos ⟨hdvd, n.minValue_le_toInt, n.toInt_le⟩, Int64.ofInt_toInt]

/-! ### Rounding -/

/-- The last bit of the double's significand is zero. -/
def IsEven : Double → Prop
  | finite _ quanta _ => HasEvenSignificand quanta
  | nan | infinite _ => False

/-- The double is finite, no other is nearer to the number, and if another is as
near, then this one is even. -/
def IsNearest (x : Double) (q : ℚ) : Prop :=
  ∃ value, x.HasValue value ∧ ∀ (y : Double) (other : ℚ), y.HasValue other →
    |value - q| ≤ |other - q| ∧ (|value - q| = |other - q| → other = value ∨ x.IsEven)

theorem abs_signed_sub (negative : Bool) (a b : Nat) :
    |signed negative a - signed negative b| = |(a : Int) - b| := by
  cases negative with
  | true =>
    show |-(a : Int) - -(b : Int)| = _
    rw [neg_sub_neg, abs_sub_comm]
  | false => rfl

/-- Numbers on either side of zero are as far apart as it is from both. -/
theorem abs_signed_not_sub (negative : Bool) (a b : Nat) :
    |signed (!negative) a - signed negative b| = a + b := by
  cases negative with
  | true =>
    show |(a : Int) - -(b : Int)| = _
    rw [sub_neg_eq_add, abs_of_nonneg (by omega)]
  | false =>
    show |-(a : Int) - b| = _
    rw [abs_of_nonpos (by omega)]
    omega

theorem isShort_zero : IsShort 0 :=
  rfl

theorem signed_zero (negative : Bool) : signed negative 0 = 0 := by
  cases negative <;> rfl

/-- What is said of rounding a magnitude holds with its sign. -/
theorem signed_nearest (negative negative' : Bool) (num : Nat) {den : Nat} (hden : 0 < den)
    {quanta : Nat} (h : IsShort quanta) :
    |signed negative (nearestQuanta num den * den) - signed negative num|
        ≤ |signed negative' (quanta * den) - signed negative num|
      ∧ (|signed negative (nearestQuanta num den * den) - signed negative num|
          = |signed negative' (quanta * den) - signed negative num| →
        signed negative' quanta = signed negative (nearestQuanta num den)
          ∨ HasEvenSignificand (nearestQuanta num den)) := by
  rw [abs_signed_sub]
  by_cases hsign : negative' = negative
  · obtain ⟨hle, heven⟩ := nearestQuanta_nearest num hden h
    rw [hsign, abs_signed_sub]
    push_cast
    exact ⟨hle, fun heq => (heven heq).imp_left (congrArg _)⟩
  · -- Zero is at least as near as a number of the other sign.
    obtain rfl := Bool.eq_not_of_ne hsign
    obtain ⟨hle, heven⟩ := nearestQuanta_nearest num hden isShort_zero
    rw [abs_signed_not_sub]
    push_cast at hle heven ⊢
    rw [zero_mul, zero_sub, abs_neg, Nat.abs_cast] at hle heven
    have hquanta : (0 : Int) ≤ quanta * den := mul_nonneg (by omega) (by omega)
    refine ⟨by omega, fun heq => ?_⟩
    rcases heven (by omega) with hzero | hr
    · left
      have hnone : (quanta : Int) * den = 0 := by omega
      have hden' : (den : Int) ≠ 0 := by omega
      obtain rfl : quanta = 0 := by exact_mod_cast (mul_eq_zero.1 hnone).resolve_right hden'
      rw [← hzero, signed_zero, signed_zero]
    · exact .inr hr

/-- The distance of a double from a quotient, over both denominators. -/
theorem abs_ratio_sub (quanta num : Int) {den : Nat} (hden : 0 < den) :
    |ratio quanta - num / den| = (|quanta * den - num * unit| : Int) / (unit * den : ℚ) := by
  have hunit := cast_unit_pos
  have hden' : (0 : ℚ) < den := Nat.cast_pos.2 hden
  have hpos := mul_pos hunit hden'
  rw [eq_div_iff hpos.ne', Int.cast_abs, ← abs_of_pos hpos, ← abs_mul, ratio]
  push_cast
  -- The number of quanta in one is too large to compute with.
  generalize (unit : ℚ) = u at hunit ⊢
  field_simp

/-- A quotient is taken as the double nearest to it, if it is not out of
bounds. -/
theorem isNearest_ofQuotient (negative : Bool) (num : Nat) {den : Nat} (hden : 0 < den)
    (h : nearestQuanta (num * unit) den < bound) :
    (ofQuotient negative num den).IsNearest (signed negative num / den) := by
  rw [ofQuotient, dif_pos h]
  refine ⟨_, hasValue_finite.2 rfl, fun y other hy => ?_⟩
  cases y with
  | nan => exact absurd hy (not_hasValue_nan _)
  | infinite negative' => exact absurd hy (not_hasValue_infinite negative' _)
  | finite negative' quanta hquanta =>
    obtain rfl := hasValue_finite.1 hy
    obtain ⟨hle, heven⟩ := signed_nearest negative negative' (num * unit) hden hquanta.2
    have hpos : (0 : ℚ) < unit * den := mul_pos cast_unit_pos (Nat.cast_pos.2 hden)
    rw [signed_mul, signed_mul, signed_mul] at hle heven
    rw [abs_ratio_sub _ _ hden, abs_ratio_sub _ _ hden, div_le_div_iff_of_pos_right hpos,
      Int.cast_le, div_left_inj' hpos.ne', Int.cast_inj]
    exact ⟨hle, fun heq => (heven heq).imp_left (congrArg ratio)⟩

/-- The least number that is too great for a double. It is half a step above the
greatest one, which is `(2 ^ 53 - 1) * 2 ^ 971`. -/
def overflow : ℚ :=
  (2 ^ 53 - 1 / 2) * 2 ^ 971

theorem two_pow_add_eq (k : Nat) : 2 ^ (k + 1074) = 2 ^ k * unit := by
  rw [Nat.pow_add, unit, Nat.one_shiftLeft]

theorem nearestQuanta_lt_bound_iff_lt_overflow (num : Nat) {den : Nat} (hden : 0 < den) :
    nearestQuanta (num * unit) den < bound ↔ (num / den : ℚ) < overflow := by
  have hplace : 2 ^ maxPlace = 2 ^ 971 * unit := by
    have hsum : maxPlace = 971 + 1074 := rfl
    rw [hsum, two_pow_add_eq]
  rw [nearestQuanta_lt_bound_iff _ hden, bound_eq, hplace, div_lt_iff₀ (Nat.cast_pos.2 hden),
    overflow, ← @Nat.cast_lt ℚ]
  simp only [Nat.cast_add, Nat.cast_mul, Nat.cast_pow, Nat.cast_ofNat]
  -- Neither power is to be computed.
  have hunit := cast_unit_pos
  generalize (unit : ℚ) = u at hunit ⊢
  generalize (2 : ℚ) ^ 971 = p
  have hsub : 2 * (2 ^ 53 * (p * u)) * den - (2 * (num * u) + den * (p * u))
      = 2 * u * ((2 ^ 53 - 1 / 2) * p * den - num) := by
    ring
  rw [← sub_pos, hsub, mul_pos_iff_of_pos_left (mul_pos two_pos hunit), sub_pos]

/-- The sign of the double, if it is a number. -/
def negative? : Double → Option Bool
  | nan => none
  | infinite negative | finite negative _ _ => some negative

/-- The double is what the number is rounded to. The sign is given apart, since
zero has either. -/
structure IsRounded (x : Double) (negative : Bool) (q : ℚ) : Prop where
  /-- The sign is kept where the number is rounded to zero, too. -/
  sign : x.negative? = some negative
  /-- Below the overflow it is the nearest double. -/
  nearest : |q| < overflow → x.IsNearest q
  /-- From there on it is an infinity. -/
  overflows : overflow ≤ |q| → x = infinite negative

theorem IsRounded.ne_nan {x : Double} {negative : Bool} {q : ℚ} (h : x.IsRounded negative q) :
    x ≠ nan := by
  rintro rfl
  cases h.sign

/-- A quotient is taken as what it is rounded to. -/
theorem isRounded_ofQuotient (negative : Bool) (num : Nat) {den : Nat} (hden : 0 < den) :
    (ofQuotient negative num den).IsRounded negative (signed negative num / den) := by
  have habs : |(signed negative num / den : ℚ)| = num / den := by
    rw [abs_div, Nat.abs_cast, ← Int.cast_abs, Int.abs_eq_natAbs, natAbs_signed, Int.cast_natCast]
  have hlt := nearestQuanta_lt_bound_iff_lt_overflow num hden
  constructor
  · simp only [ofQuotient]
    split <;> rfl
  · intro h
    rw [habs] at h
    exact isNearest_ofQuotient negative num hden (hlt.2 h)
  · intro h
    rw [habs] at h
    simp only [ofQuotient]
    rw [dif_neg fun hbound => h.not_gt (hlt.1 hbound)]

/-- If a double equals the number, the nearest one does. -/
theorem IsNearest.hasValue {x y : Double} {q : ℚ} (h : x.IsNearest q) (hy : y.HasValue q) :
    x.HasValue q := by
  obtain ⟨value, hvalue, hnearest⟩ := h
  have hle := (hnearest y q hy).1
  rw [sub_self, abs_zero, abs_nonpos_iff, sub_eq_zero] at hle
  exact hle ▸ hvalue

/-- An integer of 64 bits is taken as the double nearest to it. -/
theorem isNearest_ofInt {n : Int} (h : n.natAbs ≤ 2 ^ 63) : (ofInt n).IsNearest n := by
  have hbound : nearestQuanta (n.natAbs * unit) 1 < bound := by
    -- The integer is far from the bound.
    have hlimit : 2 * (2 ^ 63 * unit) + 2 ^ maxPlace < 2 * bound := by decide +kernel
    have hmul := Nat.mul_le_mul_right unit h
    rw [nearestQuanta_lt_bound_iff _ Nat.one_pos]
    omega
  have hnearest := isNearest_ofQuotient (n < 0) n.natAbs Nat.one_pos hbound
  rwa [signed_natAbs, Nat.cast_one, div_one] at hnearest

theorem mul_one_shiftLeft (m k : Nat) : m * 1 <<< k = m <<< k := by
  rw [Nat.shiftLeft_eq, Nat.shiftLeft_eq, Nat.one_mul]

theorem representable_mul_unit {m : Nat} (h : m ≤ precision) : Representable (m * unit) := by
  have hshift : m * unit = m <<< 1074 := mul_one_shiftLeft m 1074
  have hlimit : precision * unit < bound := by decide +kernel
  have hmul := Nat.mul_le_mul_right unit h
  rw [hshift] at hmul ⊢
  exact representable_shiftLeft h (by omega)

/-- An integer that 53 bits suffice for is taken as a double that equals it. -/
theorem hasValue_ofInt {n : Int} (h : n.natAbs ≤ precision) : (ofInt n).HasValue n := by
  have hle : n.natAbs ≤ 2 ^ 63 := h.trans (by decide)
  refine (isNearest_ofInt hle).hasValue
    (@hasValue_finite (n < 0) (n.natAbs * unit) (representable_mul_unit h) n |>.2 ?_)
  rw [signed_mul, signed_natAbs, ratio_eq_intCast_iff]

end EventRules.Double

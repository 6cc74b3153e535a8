/-!
# `EventRules.Number.Double`: double precision numbers

A double is not a number, an infinity, or a sign and a whole number of
quanta of `2 ^ -1074`, the least positive double. Which numbers of
quanta there are is `Representable`: those with at most 53 significant
bits and below `2 ^ 1024`. So every finite double is an exact number,
and its order is the order of integers.

* `ofQuotient` is the double nearest to a quotient, a tie going to the
  even neighbour, and `representable_nearestQuanta` says that rounding
  stays within the doubles until it overflows.
* `ofInt` and `toInt?` pass between doubles and 64-bit integers.
* `ofBits` and `toBits` read and write the binary format.
-/

set_option autoImplicit false

namespace EventRules

namespace Double

/-- The number of quanta in one. -/
def unit : Nat := 1 <<< 1074

/-- The least number that takes more than 53 bits. -/
def precision : Nat := 1 <<< 53

/-- The greatest place of the last bit of a double, counted from that of
a quantum. -/
def maxPlace : Nat := 2045

/-- The number of quanta at which doubles end. -/
def bound : Nat := precision <<< maxPlace

/-- How many bits of a number of quanta come after the leading 53. -/
def excess (quanta : Nat) : Nat :=
  quanta.log2 - 52

/-- Whether a double has this many quanta: it is below the bound, and
the bits after the leading 53 are zero. -/
def Representable (quanta : Nat) : Prop :=
  quanta < bound ∧ quanta >>> excess quanta <<< excess quanta = quanta

instance (quanta : Nat) : Decidable (Representable quanta) :=
  inferInstanceAs (Decidable (_ ∧ _))

theorem shiftRight_excess_lt (n : Nat) : n >>> excess n < precision := by
  rw [precision, Nat.one_shiftLeft, Nat.shiftRight_eq_div_pow,
    Nat.div_lt_iff_lt_mul (Nat.two_pow_pos _), ← Nat.pow_add]
  exact Nat.lt_of_lt_of_le Nat.lt_log2_self
    (Nat.pow_le_pow_right (by decide) (by unfold excess; omega))

/-- Shifting back and forth keeps a number that was shifted further. -/
theorem shiftRight_shiftLeft_of_le {m j k : Nat} (h : j ≤ k) :
    (m <<< k) >>> j <<< j = m <<< k := by
  simp only [Nat.shiftLeft_eq, Nat.shiftRight_eq_div_pow]
  exact Nat.div_mul_cancel (Nat.dvd_mul_left_of_dvd (Nat.pow_dvd_pow 2 h) m)

/-- A number of at most 53 bits, shifted but not out of bounds, is a
number of quanta that a double has. -/
theorem representable_shiftLeft {m k : Nat} (hm : m ≤ precision) (h : m <<< k < bound) :
    Representable (m <<< k) := by
  refine ⟨h, ?_⟩
  rcases Nat.eq_zero_or_pos m with rfl | hpos
  · simp
  rcases Nat.lt_or_eq_of_le hm with hlt | rfl
  · refine shiftRight_shiftLeft_of_le ?_
    have hne : m <<< k ≠ 0 := by
      rw [Nat.shiftLeft_eq]
      exact Nat.mul_ne_zero (by omega) (Nat.ne_of_gt (Nat.two_pow_pos k))
    rw [precision, Nat.one_shiftLeft] at hlt
    have hlog : (m <<< k).log2 < 53 + k := by
      rw [Nat.log2_lt hne, Nat.shiftLeft_eq, Nat.pow_add]
      exact Nat.mul_lt_mul_of_pos_right hlt (Nat.two_pow_pos k)
    unfold excess
    omega
  · rw [precision, ← Nat.shiftLeft_add]
    refine shiftRight_shiftLeft_of_le ?_
    rw [excess, Nat.one_shiftLeft, Nat.log2_two_pow]
    omega

end Double

/-- A double precision number. -/
inductive Double where
  /-- Not a number. -/
  | nan
  /-- An infinity. -/
  | infinite (negative : Bool)
  /-- A number of quanta, with a sign; zero has one too. -/
  | finite (negative : Bool) (quanta : Nat) (representable : Double.Representable quanta)
  deriving DecidableEq

namespace Double

/-! ### Order -/

/-- A magnitude with its sign. -/
def signed (negative : Bool) (magnitude : Nat) : Int :=
  if negative then -(magnitude : Int) else magnitude

/-- Where the double stands among the others, if it is a number: its
quanta, with the infinities at the bounds. -/
def rank? : Double → Option Int
  | nan => none
  | infinite negative => some (signed negative bound)
  | finite negative quanta _ => some (signed negative quanta)

/-- Whether both are numbers and the test holds of their ranks. -/
def compareRanks (test : Int → Int → Bool) (a b : Double) : Bool :=
  match a.rank?, b.rank? with
  | some x, some y => test x y
  | _, _ => false

/-- Numerical equality: the zeros are equal, and nothing equals what is
not a number. -/
def eq (a b : Double) : Bool := compareRanks (fun x y => x = y) a b

/-- Strict numerical order. -/
def lt (a b : Double) : Bool := compareRanks (fun x y => x < y) a b

/-- Numerical order. -/
def le (a b : Double) : Bool := compareRanks (fun x y => x ≤ y) a b

/-! ### Rounding -/

/-- The whole number nearest to a quotient, the even one of two. -/
def roundHalfEven (num den : Nat) : Nat :=
  let low := num / den
  let rest := 2 * (num % den)
  if den < rest ∨ (rest = den ∧ low % 2 = 1) then low + 1 else low

/-- The quanta nearest to a quotient of quanta among those with 53
significant bits, the even ones of two. -/
def nearestQuanta (num den : Nat) : Nat :=
  let shift := excess (num / den)
  roundHalfEven num (den <<< shift) <<< shift

theorem roundHalfEven_le {num den limit : Nat} (h : num / den < limit) :
    roundHalfEven num den ≤ limit := by
  simp only [roundHalfEven]
  split <;> omega

/-- Rounding stays within the doubles until it overflows. -/
theorem representable_nearestQuanta {num den : Nat} (h : nearestQuanta num den < bound) :
    Representable (nearestQuanta num den) := by
  refine representable_shiftLeft (roundHalfEven_le ?_) h
  rw [Nat.shiftLeft_eq, ← Nat.div_div_eq_div_mul, ← Nat.shiftRight_eq_div_pow]
  exact shiftRight_excess_lt _

/-- The double nearest to a quotient, an infinity if none is near. -/
def ofQuotient (negative : Bool) (num den : Nat) : Double :=
  let quanta := nearestQuanta (num * unit) den
  if h : nearestQuanta (num * unit) den < bound then
    .finite negative quanta (representable_nearestQuanta h)
  else .infinite negative

/-! ### Integers -/

/-- The double nearest to an integer. -/
def ofInt (n : Int) : Double :=
  ofQuotient (n < 0) n.natAbs 1

/-- The 64-bit integer that the double equals, if there is one. -/
def toInt? : Double → Option Int64
  | finite negative quanta _ =>
    let n := signed negative (quanta / unit)
    if unit ∣ quanta ∧ Int64.minValue.toInt ≤ n ∧ n ≤ Int64.maxValue.toInt then
      some (Int64.ofInt n)
    else none
  | _ => none

/-! ### The binary format -/

theorem shiftLeft_lt_bound {m k : Nat} (hm : m < precision) (hk : k ≤ maxPlace) :
    m <<< k < bound := by
  rw [bound, Nat.shiftLeft_eq, Nat.shiftLeft_eq]
  exact Nat.lt_of_lt_of_le (Nat.mul_lt_mul_of_pos_right hm (Nat.two_pow_pos k))
    (Nat.mul_le_mul_left _ (Nat.pow_le_pow_right (by decide) hk))

/-- The double of a significand of at most 53 bits and the place of its
last bit. -/
def ofSignificand (negative : Bool) (significand : Nat) (place : Nat)
    (hsignificand : significand < precision) (hplace : place ≤ maxPlace) : Double :=
  .finite negative (significand <<< place)
    (representable_shiftLeft (Nat.le_of_lt hsignificand)
      (shiftLeft_lt_bound hsignificand hplace))

/-- The first number of a 52-bit fraction that does not fit it, which is
the bit that a normal significand has in front of its fraction. -/
def leadingBit : Nat := 0x10000000000000

theorem precision_eq : precision = 2 * leadingBit := by
  decide

/-- The double of a sign, an 11-bit exponent and a 52-bit fraction. -/
def ofFields (negative : Bool) (exponent : Fin 2048) (fraction : Fin leadingBit) :
    Double :=
  if hmax : exponent.val = 2047 then
    if fraction.val = 0 then .infinite negative else .nan
  else if exponent.val = 0 then
    ofSignificand negative fraction.val 0 (by rw [precision_eq]; omega) (Nat.zero_le _)
  else
    ofSignificand negative (leadingBit + fraction.val) (exponent.val - 1)
      (by rw [precision_eq]; omega) (by unfold maxPlace; omega)

/-- The double that the bits denote. -/
def ofBits (bits : UInt64) : Double :=
  ofFields (bits.toNat >>> 63 = 1)
    ⟨bits.toNat >>> 52 % 2048, Nat.mod_lt _ (by decide)⟩
    ⟨bits.toNat % leadingBit, Nat.mod_lt _ (by decide)⟩

/-- Exponent and fraction of a number of quanta, as one number. -/
def fieldsOfQuanta (quanta : Nat) : Nat :=
  if quanta < leadingBit then quanta
  else excess quanta * leadingBit + quanta >>> excess quanta

/-- The bit of the sign. -/
def signBit (negative : Bool) : Nat :=
  if negative then 1 <<< 63 else 0

/-- The bits of the double. What is not a number has one of many. -/
def toBits : Double → UInt64
  | nan => 0x7ff8000000000000
  | infinite negative => UInt64.ofNat (signBit negative + 2047 * leadingBit)
  | finite negative quanta _ => UInt64.ofNat (signBit negative + fieldsOfQuanta quanta)

end Double

end EventRules

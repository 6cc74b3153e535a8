import EventRules.Number.Double
import Mathlib.Algebra.Order.Ring.Abs
import Mathlib.Tactic.Ring

/-!
# `EventRules.Proofs.Number.Rounding`: rounding to the nearest

A quotient is rounded to a whole number of steps of one size. The size is the
power of two that leaves 53 significant bits.

* `roundHalfEven_nearest`: no whole number is nearer to the quotient, and the
  chosen one is even if another is as near.
* `nearestQuanta_nearest` says the same of the numbers with 53 significant
  bits, where it is the significand that is even. Below the power of two where the steps grow there are more of them than
  multiples of the step, but that power is nearer than any of those.
* `nearestQuanta_mul_self`: what has 53 significant bits is not changed.
* `nearestQuanta_mul_right`: rounding depends on the quotient alone.
* `nearestQuanta_lt_bound_iff`: it reaches the bound from half a step below.
-/

set_option autoImplicit false

namespace EventRules.Double

/-! ### Whole numbers -/

theorem roundHalfEven_mul_right {k : Nat} (hk : 0 < k) (num den : Nat) :
    roundHalfEven (num * k) (den * k) = roundHalfEven num den := by
  have hlt : den * k < 2 * (num % den * k) ↔ den < 2 * (num % den) := by
    rw [← Nat.mul_assoc, Nat.mul_lt_mul_right hk]
  have heq : 2 * (num % den * k) = den * k ↔ 2 * (num % den) = den := by
    rw [← Nat.mul_assoc, Nat.mul_left_inj (Nat.ne_of_gt hk)]
  simp only [roundHalfEven, Nat.mul_div_mul_right _ _ hk, Nat.mul_mod_mul_right, hlt, heq]

theorem roundHalfEven_mul_self {den : Nat} (hden : 0 < den) (m : Nat) :
    roundHalfEven (m * den) den = m := by
  have hnot : ¬ (den < 0 ∨ (0 = den ∧ m % 2 = 1)) := by omega
  simp only [roundHalfEven, Nat.mul_div_cancel _ hden, Nat.mul_mod_left, Nat.mul_zero, if_neg hnot]

/-- A quotient is rounded by at most one half, and by one half to an even
number only. -/
theorem roundHalfEven_half (num : Nat) {den : Nat} (hden : 0 < den) :
    2 * |(roundHalfEven num den * den : Int) - num| ≤ den
      ∧ (2 * |(roundHalfEven num den * den : Int) - num| = den →
          roundHalfEven num den % 2 = 0) := by
  have hsplit : (num : Int) = (num / den : Nat) * den + (num % den : Nat) := by
    exact_mod_cast (Nat.div_add_mod' num den).symm
  have hrest : num % den < den := Nat.mod_lt num hden
  simp only [roundHalfEven]
  generalize num / den = low at hsplit ⊢
  generalize num % den = rest at hsplit hrest ⊢
  split
  · next hup =>
    have herror : ((low + 1 : Nat) : Int) * den - num = den - rest := by
      rw [hsplit]
      push_cast
      ring
    rw [herror, abs_of_nonneg (by omega)]
    omega
  · next hdown =>
    have herror : (low : Int) * den - num = -rest := by
      rw [hsplit]
      ring
    rw [herror, abs_neg, abs_of_nonneg (by omega)]
    omega

/-- No whole number is nearer to the quotient than the one it is rounded to,
and another is as near only if that one is even. -/
theorem roundHalfEven_nearest (num : Nat) {den : Nat} (hden : 0 < den) (w : Nat) :
    |(roundHalfEven num den * den : Int) - num| ≤ |(w * den : Int) - num|
      ∧ (|(roundHalfEven num den * den : Int) - num| = |(w * den : Int) - num| →
          w = roundHalfEven num den ∨ roundHalfEven num den % 2 = 0) := by
  obtain ⟨hhalf, heven⟩ := roundHalfEven_half num hden
  generalize roundHalfEven num den = r at hhalf heven ⊢
  by_cases hw : w = r
  · rw [hw]
    exact ⟨le_rfl, fun _ => .inl rfl⟩
  · -- Another number is a whole step away.
    have hstep : (den : Int) ≤ |(w * den : Int) - r * den| := by
      have hne : (w : Int) - r ≠ 0 := by omega
      rw [← sub_mul, abs_mul, Nat.abs_cast]
      exact le_mul_of_one_le_left (Int.natCast_nonneg den) (Int.one_le_abs hne)
    have htriangle := abs_sub_le (w * den : Int) num (r * den)
    rw [abs_sub_comm (num : Int) (r * den)] at htriangle
    exact ⟨by omega, fun heq => .inr (heven (by omega))⟩

/-- Rounding reaches an even number from half a step below it. -/
theorem roundHalfEven_lt_iff (num : Nat) {den limit : Nat} (hden : 0 < den)
    (heven : limit % 2 = 0) : roundHalfEven num den < limit ↔ 2 * num + den < 2 * limit * den := by
  have hsplit := Nat.div_add_mod' num den
  have hrest := Nat.mod_lt num hden
  have hmul : 2 * limit * den = 2 * (limit * den) := Nat.mul_assoc 2 limit den
  simp only [roundHalfEven]
  rw [hmul]
  generalize num / den = low at hsplit ⊢
  generalize num % den = rest at hsplit hrest ⊢
  -- The limit is at most `low`, or just above it, or further away.
  rcases Nat.lt_or_ge low limit with hlt | hge
  · rcases Nat.lt_or_eq_of_le (Nat.succ_le_of_lt hlt) with hfar | rfl
    · have hmul := Nat.mul_le_mul_right den (Nat.succ_le_of_lt hfar)
      rw [Nat.succ_eq_add_one, Nat.add_mul, Nat.add_mul] at hmul
      split <;> omega
    · rw [Nat.succ_eq_add_one, Nat.add_mul]
      split <;> omega
  · have hmul := Nat.mul_le_mul_right den hge
    split <;> omega

/-! ### Numbers of quanta -/

/-- The number has at most 53 significant bits. -/
def IsShort (quanta : Nat) : Prop :=
  quanta >>> excess quanta <<< excess quanta = quanta

/-- The significand of the number is even. -/
def HasEvenSignificand (quanta : Nat) : Prop :=
  quanta >>> excess quanta % 2 = 0

theorem nearestQuanta_eq (num den : Nat) :
    nearestQuanta num den
      = roundHalfEven num (den * 2 ^ excess (num / den)) * 2 ^ excess (num / den) := by
  simp only [nearestQuanta, Nat.shiftLeft_eq]

theorem nearestQuanta_mul_right {k : Nat} (hk : 0 < k) (num den : Nat) :
    nearestQuanta (num * k) (den * k) = nearestQuanta num den := by
  rw [nearestQuanta_eq, nearestQuanta_eq, Nat.mul_div_mul_right _ _ hk, Nat.mul_right_comm,
    roundHalfEven_mul_right hk]

/-- A number of 53 significant bits stays as it is. -/
theorem nearestQuanta_mul_self {quanta den : Nat} (hden : 0 < den) (h : IsShort quanta) :
    nearestQuanta (quanta * den) den = quanta := by
  rw [nearestQuanta_eq, Nat.mul_div_cancel _ hden]
  rw [IsShort, Nat.shiftLeft_eq] at h
  generalize quanta >>> excess quanta = m at h
  generalize excess quanta = k at h ⊢
  have hmul : quanta * den = m * (den * 2 ^ k) := by
    rw [← h]
    ring
  rw [hmul, roundHalfEven_mul_self (Nat.mul_pos hden (Nat.two_pow_pos k)), h]

/-- A short number is a multiple of the power of two that its excess bits are
worth. -/
theorem IsShort.dvd {quanta : Nat} (h : IsShort quanta) : 2 ^ excess quanta ∣ quanta := by
  rw [IsShort, Nat.shiftLeft_eq] at h
  exact ⟨quanta >>> excess quanta, by rw [Nat.mul_comm, h]⟩

/-- A short number that is no multiple of the step at the quotient is below the
first multiple of 53 bits, and the quotient is not. -/
theorem IsShort.lt_of_not_dvd {num den quanta : Nat} (hden : 0 < den) (h : IsShort quanta)
    (hnot : ¬ 2 ^ excess (num / den) ∣ quanta) :
    quanta < 2 ^ 52 * 2 ^ excess (num / den)
      ∧ 2 ^ 52 * 2 ^ excess (num / den) * den ≤ num := by
  have hexcess : excess quanta < excess (num / den) := by
    by_contra hle
    exact hnot ((Nat.pow_dvd_pow 2 (Nat.le_of_not_lt hle)).trans h.dvd)
  have hquanta : quanta ≠ 0 := by
    rintro rfl
    exact hnot (Nat.dvd_zero _)
  have hquotient : num / den ≠ 0 := by
    intro hzero
    rw [hzero] at hexcess
    exact absurd hexcess (Nat.not_lt_zero _)
  rw [← Nat.pow_add]
  constructor
  · rw [← Nat.log2_lt hquanta]
    unfold excess at hexcess ⊢
    omega
  · rw [← Nat.le_div_iff_mul_le hden, ← Nat.le_log2 hquotient]
    unfold excess at hexcess ⊢
    omega

/-! ### Significands -/

/-- A number of 53 bits, or of fewer that is not shifted, is its own
significand. -/
theorem significand_mul_two_pow {m k : Nat} (hm : m < 2 ^ 53) (h : k = 0 ∨ 2 ^ 52 ≤ m) :
    (m * 2 ^ k) >>> excess (m * 2 ^ k) = m := by
  have hexcess : excess (m * 2 ^ k) = k := by
    rcases Nat.eq_zero_or_pos m with rfl | hpos
    · obtain rfl := h.resolve_right (by omega)
      rfl
    · have hne : m * 2 ^ k ≠ 0 := (Nat.mul_pos hpos (Nat.two_pow_pos k)).ne'
      have hhigh : (m * 2 ^ k).log2 < 53 + k := by
        rw [Nat.log2_lt hne, Nat.pow_add]
        exact Nat.mul_lt_mul_of_pos_right hm (Nat.two_pow_pos k)
      unfold excess
      rcases h with rfl | hlow
      · omega
      · have hlog : 52 + k ≤ (m * 2 ^ k).log2 := by
          rw [Nat.le_log2 hne, Nat.pow_add]
          exact Nat.mul_le_mul_right _ hlow
        omega
  rw [hexcess, Nat.shiftRight_eq_div_pow, Nat.mul_div_cancel _ (Nat.two_pow_pos k)]

theorem le_roundHalfEven (num den : Nat) : num / den ≤ roundHalfEven num den := by
  simp only [roundHalfEven]
  split <;> omega

/-- A number is shifted to 53 bits, or has no more. -/
theorem le_shiftRight_excess (n : Nat) : excess n = 0 ∨ 2 ^ 52 ≤ n >>> excess n := by
  refine or_iff_not_imp_left.2 fun hexcess => ?_
  have hn : n ≠ 0 := by
    rintro rfl
    exact hexcess rfl
  rw [Nat.shiftRight_eq_div_pow, Nat.le_div_iff_mul_le (Nat.two_pow_pos _), ← Nat.pow_add,
    ← Nat.le_log2 hn]
  unfold excess at hexcess ⊢
  omega

theorem div_mul_two_pow (num den k : Nat) : num / (den * 2 ^ k) = (num / den) >>> k := by
  rw [← Nat.div_div_eq_div_mul, Nat.shiftRight_eq_div_pow]

/-- What a quotient is rounded to has at most 53 bits, unless it is the next power
of two. -/
theorem roundHalfEven_excess_le (num den : Nat) :
    roundHalfEven num (den * 2 ^ excess (num / den)) ≤ 2 ^ 53 := by
  refine roundHalfEven_le ?_
  rw [div_mul_two_pow]
  exact shiftRight_excess_lt _

/-- It is not shifted, or has no fewer. -/
theorem le_roundHalfEven_excess (num den : Nat) :
    excess (num / den) = 0
      ∨ 2 ^ 52 ≤ roundHalfEven num (den * 2 ^ excess (num / den)) := by
  have hlow := le_roundHalfEven num (den * 2 ^ excess (num / den))
  rw [div_mul_two_pow] at hlow
  exact (le_shiftRight_excess (num / den)).imp_right fun h => h.trans hlow

/-- Rounding to an even multiple of the step gives an even significand. -/
theorem hasEvenSignificand_nearestQuanta {num den : Nat}
    (h : roundHalfEven num (den * 2 ^ excess (num / den)) % 2 = 0) :
    HasEvenSignificand (nearestQuanta num den) := by
  have hle := roundHalfEven_excess_le num den
  have hmultiple := le_roundHalfEven_excess num den
  rw [HasEvenSignificand, nearestQuanta_eq]
  generalize roundHalfEven num (den * 2 ^ excess (num / den)) = r at h hle hmultiple ⊢
  generalize excess (num / den) = k at hmultiple ⊢
  rcases Nat.lt_or_eq_of_le hle with hlt | rfl
  · rw [significand_mul_two_pow hlt hmultiple, h]
  · -- What is rounded up to the next power of two has nothing but its leading bit.
    have hcarry : 2 ^ 53 * 2 ^ k = 2 ^ 52 * 2 ^ (k + 1) := by ring
    rw [hcarry, significand_mul_two_pow (by decide) (.inr le_rfl)]
    rfl

/-! ### The nearest number of quanta -/

/-- No short number is nearer to the quotient than the one it is rounded to,
and another is as near only if the significand of that one is even. -/
theorem nearestQuanta_nearest (num : Nat) {den : Nat} (hden : 0 < den) {quanta : Nat}
    (h : IsShort quanta) :
    |(nearestQuanta num den * den : Int) - num| ≤ |(quanta * den : Int) - num|
      ∧ (|(nearestQuanta num den * den : Int) - num| = |(quanta * den : Int) - num| →
          quanta = nearestQuanta num den ∨ HasEvenSignificand (nearestQuanta num den)) := by
  have hstep : 0 < den * 2 ^ excess (num / den) := Nat.mul_pos hden (Nat.two_pow_pos _)
  have hnearest := roundHalfEven_nearest num hstep
  have hshort := @IsShort.lt_of_not_dvd num den quanta hden h
  have heven := @hasEvenSignificand_nearestQuanta num den
  rw [nearestQuanta_eq] at heven ⊢
  generalize roundHalfEven num (den * 2 ^ excess (num / den)) = r at hnearest heven ⊢
  generalize 2 ^ excess (num / den) = step at hnearest hshort heven ⊢
  have hmultiple : ∀ w : Nat, ((w * step : Nat) * den : Int) = w * ((den * step : Nat) : Int) := by
    intro w
    push_cast
    ring
  rw [hmultiple]
  by_cases hdvd : step ∣ quanta
  · obtain ⟨w, rfl⟩ := hdvd
    rw [Nat.mul_comm step w, hmultiple]
    refine ⟨(hnearest w).1, fun heq => ?_⟩
    rcases (hnearest w).2 heq with rfl | hr
    · exact .inl rfl
    · exact .inr (heven hr)
  · -- The first multiple of 53 bits lies between the number and the quotient.
    obtain ⟨hlt, hle⟩ := hshort hdvd
    have hfirst := (hnearest (2 ^ 52)).1
    rw [← hmultiple (2 ^ 52)] at hfirst
    generalize 2 ^ 52 * step = first at hlt hle hfirst
    have hbelow : (quanta * den : Int) < first * den := by
      exact_mod_cast Nat.mul_lt_mul_of_pos_right hlt hden
    have habove : (first * den : Int) ≤ num := by exact_mod_cast hle
    have hfar : |(first * den : Int) - num| < |(quanta * den : Int) - num| := by
      rw [abs_of_nonpos (by omega), abs_of_nonpos (by omega)]
      omega
    exact ⟨(hfirst.trans_lt hfar).le, fun heq => absurd heq (hfirst.trans_lt hfar).ne⟩

/-! ### Overflow -/

theorem bound_eq : bound = 2 ^ 53 * 2 ^ maxPlace := by
  rw [bound, precision, Nat.shiftLeft_eq, Nat.one_shiftLeft]

/-- Rounding reaches the bound from half a step below it, at the size of the last
steps. -/
theorem nearestQuanta_lt_bound_iff (num : Nat) {den : Nat} (hden : 0 < den) :
    nearestQuanta num den < bound ↔ 2 * num + den * 2 ^ maxPlace < 2 * bound * den := by
  have hbound : 2 * bound * den = 2 * 2 ^ 53 * (den * 2 ^ maxPlace) := by
    rw [bound_eq]
    ring
  rw [hbound, nearestQuanta_eq, bound_eq]
  generalize maxPlace = place
  rcases Nat.lt_trichotomy (excess (num / den)) place with hsmall | hequal | hlarge
  · -- Both sides hold, since the steps are smaller.
    have hstep : 2 ^ excess (num / den) * 2 ≤ 2 ^ place :=
      Nat.pow_le_pow_right Nat.two_pos hsmall
    have hquotient : num / den < 2 ^ 53 * 2 ^ excess (num / den) := by
      have hshift := shiftRight_excess_lt (num / den)
      rwa [Nat.shiftRight_eq_div_pow, Nat.div_lt_iff_lt_mul (Nat.two_pow_pos _)] at hshift
    have hle := Nat.mul_le_mul_right (2 ^ excess (num / den)) (roundHalfEven_excess_le num den)
    have hpos : 0 < 2 ^ excess (num / den) := Nat.two_pow_pos _
    have hmul := Nat.mul_le_mul_left den hstep
    rw [Nat.div_lt_iff_lt_mul hden, Nat.mul_assoc, Nat.mul_comm _ den] at hquotient
    rw [← Nat.mul_assoc] at hmul
    exact iff_of_true (by omega) (by omega)
  · rw [hequal, Nat.mul_lt_mul_right (Nat.two_pow_pos place)]
    exact roundHalfEven_lt_iff num (Nat.mul_pos hden (Nat.two_pow_pos place)) (by decide)
  · -- Neither holds, since they are greater.
    have hstep : 2 ^ place * 2 ≤ 2 ^ excess (num / den) :=
      Nat.pow_le_pow_right Nat.two_pos hlarge
    have hne : excess (num / den) ≠ 0 := Nat.ne_zero_of_lt hlarge
    have hquotient := (le_shiftRight_excess (num / den)).resolve_left hne
    have hge := Nat.mul_le_mul_right (2 ^ excess (num / den))
      ((le_roundHalfEven_excess num den).resolve_left hne)
    have hmul := Nat.mul_le_mul_left den hstep
    rw [Nat.shiftRight_eq_div_pow, Nat.le_div_iff_mul_le (Nat.two_pow_pos _),
      Nat.le_div_iff_mul_le hden, Nat.mul_assoc, Nat.mul_comm _ den] at hquotient
    rw [← Nat.mul_assoc] at hmul
    exact iff_of_false (by omega) (by omega)

end EventRules.Double

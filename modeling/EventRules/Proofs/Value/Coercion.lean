import EventRules.Proofs.Number.Exact
import EventRules.Value

/-!
# `EventRules.Proofs.Value.Coercion`: a value as another kind

A value can be had as its own kind, and numbers can change between integers and
doubles where nothing is lost. `Kind.Takes` lists the cases, and
`coerce_eq_some_iff` says that there are no others.

* `Value.meaning` is what a value stands for, whatever its kind. A coercion
  keeps it (`Kind.Takes.meaning_eq`).
* `Kind.Takes.again`: a value that has been coerced is of the kind already.
* `Kind.isCoercion_coerce` is the specification of the whole.
-/

set_option autoImplicit false

namespace EventRules

/-! ### What values stand for -/

/-- What a value stands for. The number is exact. -/
inductive Value.Meaning where
  | number (value : WithBotTop ℚ)
  | notANumber
  | bool (b : Bool)
  | string (s : String)
  | set (items : StringSet)

/-- What the value stands for. -/
def Value.meaning : Value → Meaning
  | int n => .number (n.toInt : ℚ)
  | float x => x.value?.elim .notANumber .number
  | bool b => .bool b
  | string s => .string s
  | set items => .set items

/-- A double that equals an integer stands for the same number. -/
theorem Value.meaning_float {x : Double} {n : Int64} (h : x.HasValue n.toInt) :
    (float x).meaning = (int n).meaning := by
  rw [meaning, meaning, h, Option.elim_some]

namespace Kind

/-! ### Coercions -/

/-- The kind takes the value, and this is what it makes of it. -/
inductive Takes : Kind → Value → Value → Prop
  /-- A value of the kind is kept. -/
  | own {kind : Kind} {value : Value} (h : value.kind = kind) : Takes kind value value
  /-- An integer that 53 bits suffice for becomes a double. -/
  | widen {n : Int64} (h : n.toInt.natAbs ≤ maxExactInt) :
      Takes .float (.int n) (.float (.ofInt n.toInt))
  /-- A double that equals a 64-bit integer becomes that integer. -/
  | narrow {x : Double} {n : Int64} (h : x.HasValue n.toInt) : Takes .int (.float x) (.int n)

theorem coerce_float_int (n : Int64) :
    Kind.float.coerce (.int n)
      = if n.toInt.natAbs ≤ maxExactInt then some (.float (.ofInt n.toInt)) else none :=
  rfl

theorem coerce_int_float (x : Double) : Kind.int.coerce (.float x) = x.toInt?.map .int :=
  rfl

theorem coerce_own (value : Value) : value.kind.coerce value = some value := by
  cases value <;> rfl

/-- Between other kinds there is no coercion. -/
theorem coerce_eq_none {kind : Kind} {value : Value} (hown : value.kind ≠ kind)
    (hwiden : ¬ (kind = .float ∧ value.kind = .int))
    (hnarrow : ¬ (kind = .int ∧ value.kind = .float)) : kind.coerce value = none := by
  rw [coerce.eq_def]
  split
  · exact absurd ⟨rfl, rfl⟩ hwiden
  · exact absurd ⟨rfl, rfl⟩ hnarrow
  · exact if_neg hown

/-- A coercion is one of the three. -/
theorem coerce_eq_some_iff {kind : Kind} {value result : Value} :
    kind.coerce value = some result ↔ kind.Takes value result := by
  constructor
  · intro h
    rw [coerce.eq_def] at h
    split at h
    · next n =>
      split at h
      · next hn =>
        cases h
        exact .widen hn
      · cases h
    · next x =>
      obtain ⟨n, hn, rfl⟩ := Option.map_eq_some_iff.1 h
      exact .narrow (Double.toInt?_eq_some_iff.1 hn)
    · split at h
      · next hkind =>
        cases h
        exact .own hkind
      · cases h
  · intro h
    cases h with
    | own hkind => exact hkind ▸ coerce_own value
    | widen hn => rw [coerce_float_int, if_pos hn]
    | narrow hx => rw [coerce_int_float, Double.toInt?_eq_some_iff.2 hx, Option.map_some]

namespace Takes

variable {kind : Kind} {value result : Value}

theorem kind_eq (h : kind.Takes value result) : result.kind = kind := by
  cases h with
  | own hkind => exact hkind
  | widen | narrow => rfl

/-- Nothing is lost. -/
theorem meaning_eq (h : kind.Takes value result) : result.meaning = value.meaning := by
  cases h with
  | own => rfl
  | widen hn => exact Value.meaning_float (Double.hasValue_ofInt hn)
  | narrow hx => exact (Value.meaning_float hx).symm

/-- Nothing is left to do. -/
theorem again (h : kind.Takes value result) : kind.Takes result result :=
  .own h.kind_eq

end Takes

theorem coerce_coerce {kind : Kind} {value result : Value} (h : kind.coerce value = some result) :
    kind.coerce result = some result :=
  coerce_eq_some_iff.2 (coerce_eq_some_iff.1 h).again

/-! ### The specification -/

/-- The function takes values as other kinds, where nothing is lost. -/
structure IsCoercion (coerce : Kind → Value → Option Value) : Prop where
  /-- A value of the kind is kept. -/
  own : ∀ value, coerce value.kind value = some value
  /-- An integer is taken as a double up to the magnitude where integers that
  are no doubles begin. -/
  widens : ∀ n : Int64,
    (coerce .float (.int n)).isSome ↔ -2 ^ 53 ≤ n.toInt ∧ n.toInt ≤ 2 ^ 53
  /-- A double is taken as an integer if it equals one of 64 bits. -/
  narrows : ∀ x : Double,
    (coerce .int (.float x)).isSome ↔ ∃ n : Int, x.HasValue n ∧ -2 ^ 63 ≤ n ∧ n < 2 ^ 63
  /-- Nothing else is taken as another kind. -/
  refuses : ∀ kind value, value.kind ≠ kind → ¬ (kind = .float ∧ value.kind = .int) →
    ¬ (kind = .int ∧ value.kind = .float) → coerce kind value = none
  /-- The result is of the kind and stands for what the value does. -/
  lossless : ∀ kind value result, coerce kind value = some result →
    result.kind = kind ∧ result.meaning = value.meaning
  /-- Taken as the kind again, it stays as it is. -/
  again : ∀ kind value result, coerce kind value = some result → coerce kind result = some result
  /-- An integer comes back from a double. -/
  int_back : ∀ n result, coerce .float (.int n) = some result → coerce .int result = some (.int n)
  /-- A double of no greater magnitude comes back from an integer, but for the
  sign of zero. -/
  float_back : ∀ (x : Double) (value : ℚ) (result : Value), x.HasValue value → |value| ≤ 2 ^ 53 →
    coerce .int (.float x) = some result → ∃ y, coerce .float result = some (.float y) ∧ y.eq x

theorem isSome_coerce_float_int (n : Int64) :
    (Kind.float.coerce (.int n)).isSome ↔ -2 ^ 53 ≤ n.toInt ∧ n.toInt ≤ 2 ^ 53 := by
  have hbound : n.toInt.natAbs ≤ maxExactInt ↔ -2 ^ 53 ≤ n.toInt ∧ n.toInt ≤ 2 ^ 53 := by
    show n.toInt.natAbs ≤ 2 ^ 53 ↔ _
    omega
  rw [coerce_float_int, ← hbound]
  split
  · next h => exact iff_of_true rfl h
  · next h => exact iff_of_false nofun h

theorem isSome_coerce_int_float (x : Double) :
    (Kind.int.coerce (.float x)).isSome ↔ ∃ n : Int, x.HasValue n ∧ -2 ^ 63 ≤ n ∧ n < 2 ^ 63 := by
  rw [coerce_int_float, Option.isSome_map, Option.isSome_iff_exists]
  constructor
  · rintro ⟨n, hn⟩
    exact ⟨n.toInt, Double.toInt?_eq_some_iff.1 hn, n.le_toInt, n.toInt_lt⟩
  · rintro ⟨n, hvalue, hlow, hhigh⟩
    refine ⟨.ofInt n, Double.toInt?_eq_some_iff.2 ?_⟩
    rwa [Int64.toInt_ofInt_of_le hlow hhigh]

/-- An integer comes back from the double that it was taken as. -/
theorem coerce_int_of_coerce_float {n : Int64} {result : Value}
    (h : Kind.float.coerce (.int n) = some result) : Kind.int.coerce result = some (.int n) := by
  rw [coerce_eq_some_iff] at h ⊢
  cases h with
  | own hkind =>
    -- An integer is no double, so it was not kept.
    cases hkind
  | widen hn => exact .narrow (Double.hasValue_ofInt hn)

/-- A double comes back from the integer that it was taken as, if that is not too
great for a double. -/
theorem coerce_float_of_coerce_int {x : Double} {value : ℚ} {result : Value}
    (hvalue : x.HasValue value) (hle : |value| ≤ 2 ^ 53)
    (h : Kind.int.coerce (.float x) = some result) :
    ∃ y, Kind.float.coerce result = some (.float y) ∧ y.eq x := by
  rw [coerce_eq_some_iff] at h
  cases h with
  | own hkind => cases hkind
  | @narrow _ n hn =>
    -- The magnitude is that of the integer, so it goes back the way it came.
    obtain rfl := hn.unique hvalue
    have hbound : n.toInt.natAbs ≤ maxExactInt := by
      show n.toInt.natAbs ≤ 2 ^ 53
      rw [← Int.cast_abs, Int.abs_eq_natAbs] at hle
      exact_mod_cast hle
    refine ⟨.ofInt n.toInt, coerce_eq_some_iff.2 (.widen hbound), ?_⟩
    exact Double.eq_iff.2 ⟨_, _, Double.hasValue_ofInt hbound, hn, rfl⟩

-- Nothing but the sign of a zero is lost on the way back.
example : Kind.int.coerce (.float (.finite true 0 (by decide +kernel))) = some (.int 0) := by
  decide +kernel

/-- `Kind.coerce` loses nothing. -/
theorem isCoercion_coerce : IsCoercion coerce where
  own := coerce_own
  widens := isSome_coerce_float_int
  narrows := isSome_coerce_int_float
  refuses _ _ := coerce_eq_none
  lossless _ _ _ h := ⟨(coerce_eq_some_iff.1 h).kind_eq, (coerce_eq_some_iff.1 h).meaning_eq⟩
  again _ _ _ := coerce_coerce
  int_back _ _ := coerce_int_of_coerce_float
  float_back _ _ _ := coerce_float_of_coerce_int

end Kind

end EventRules

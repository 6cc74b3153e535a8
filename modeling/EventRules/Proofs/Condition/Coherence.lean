import EventRules.Proofs.Condition.Ranges
import EventRules.Proofs.Number.Exact

/-!
# `EventRules.Proofs.Condition.Coherence`: numerical comparisons agree

The six numerical operators are different code, and a script may rely on them to
divide the values among its rules. They all compare the number that a value
counts as with numbers that literals denote. Neither a literal nor the bound of a
range is ever `nan`, so what they find are facts about one order.

* `Relation.holds_iff`: that order is the one of exact values, and
  `Double.exactlyOne` says that it leaves two numbers in one of three ways.
* `Operator.matches_number_iff` and `Operator.matches_inRange_iff`: what an
  operator with a literal finds.
* `Value.comparesCoherently`: the comparisons with one value leave no gaps and
  do not overlap.
-/

set_option autoImplicit false

namespace EventRules

open Text

/-! ### Order -/

/-- One of the three holds, and only one. -/
def ExactlyOne (p q r : Prop) : Prop :=
  (p ∧ ¬ q ∧ ¬ r) ∨ (¬ p ∧ q ∧ ¬ r) ∨ (¬ p ∧ ¬ q ∧ r)

namespace Double

/-- Two numbers stand in one of three ways. -/
theorem exactlyOne {x y : Double} (hx : x ≠ .nan) (hy : y ≠ .nan) :
    ExactlyOne (x.lt y) (x.eq y) (y.lt x) := by
  obtain ⟨rank, hrank⟩ := exists_rank? hx
  obtain ⟨other, hother⟩ := exists_rank? hy
  simp only [ExactlyOne, lt, eq, compareRanks, hrank, hother, decide_eq_true_eq]
  omega

theorem le_refl {x : Double} (h : x ≠ .nan) : x.le x := by
  obtain ⟨rank, hrank⟩ := exists_rank? h
  simp only [le, compareRanks, hrank, decide_eq_true_eq, Int.le_refl]

/-- Equal numbers are those that are at most each other. -/
theorem eq_iff_le_le {x y : Double} : y.eq x ↔ x.le y ∧ y.le x := by
  cases hx : x.rank? with
  | none => simp [eq, le, compareRanks, hx]
  | some rank =>
    cases hy : y.rank? with
    | none => simp [eq, le, compareRanks, hx, hy]
    | some other =>
      simp only [eq, le, compareRanks, hx, hy, decide_eq_true_eq]
      omega

end Double

/-- The relation between exact values. -/
def Relation.Orders : Relation → WithBotTop ℚ → WithBotTop ℚ → Prop
  | equal, p, q => p = q
  | greater, p, q => q < p
  | greaterOrEqual, p, q => q ≤ p
  | less, p, q => p < q
  | lessOrEqual, p, q => p ≤ q

/-- Doubles are related as their exact values are, if they are numbers. -/
theorem Relation.holds_iff {relation : Relation} {x y : Double} :
    relation.holds x y ↔ ∃ p q, x.value? = some p ∧ y.value? = some q ∧ relation.Orders p q := by
  have hswap : ∀ {r : WithBotTop ℚ → WithBotTop ℚ → Prop},
      (∃ q p, y.value? = some q ∧ x.value? = some p ∧ r q p)
        ↔ ∃ p q, x.value? = some p ∧ y.value? = some q ∧ r q p := by
    intro r
    rw [exists_comm]
    simp only [and_left_comm]
  cases relation with
  | equal => exact Double.eq_iff
  | greater => exact Double.lt_iff.trans hswap
  | greaterOrEqual => exact Double.le_iff.trans hswap
  | less => exact Double.lt_iff
  | lessOrEqual => exact Double.le_iff

/-! ### Matches -/

namespace Operator

/-- The operator takes the text. -/
def Accepts (operator : Operator) (text : String) : Prop :=
  ∃ comparator, operator.read text = .ok comparator

/-- The operator takes the text, and the comparison with it holds of the
value. -/
def Matches (operator : Operator) (text : String) (value : Value) : Prop :=
  ∃ comparator, operator.read text = .ok comparator ∧ comparator.compare value

/-- Whether the operator matches is what the comparator finds that it makes. -/
theorem matches_iff_of_read {operator : Operator} {text : String} {comparator : Comparator}
    (h : operator.read text = .ok comparator) (value : Value) :
    operator.Matches text value ↔ comparator.compare value := by
  constructor
  · rintro ⟨other, hread, hcompare⟩
    obtain rfl := Except.ok.inj (h.symm.trans hread)
    exact hcompare
  · exact fun hcompare => ⟨comparator, h, hcompare⟩

theorem matches_number_iff {relation : Relation} {text : String} {value : Value} {x : Double}
    (h : Literal.number text = .ok x) :
    (number relation).Matches text value ↔ ∃ y, value.number? = some y ∧ relation.holds y x := by
  have hread : (number relation).read text = .ok (.number relation x) :=
    map_eq_ok_iff.2 ⟨x, h, rfl⟩
  rw [matches_iff_of_read hread]
  exact Option.any_eq_true _ _

theorem matches_inRange_iff {text : String} {value : Value} {lo hi : Double}
    (h : Literal.range text = .ok (lo, hi)) :
    inRange.Matches text value ↔ ∃ y, value.number? = some y ∧ lo.le y ∧ y.le hi := by
  have hread : inRange.read text = .ok (.inRange lo hi) := map_eq_ok_iff.2 ⟨(lo, hi), h, rfl⟩
  rw [matches_iff_of_read hread]
  simp only [← Bool.and_eq_true]
  exact Option.any_eq_true _ _

/-- A number may be put into a range as it is if it has no blanks at its ends. -/
theorem accepts_rangeText {low high : String} {lo hi : Double} (hlow : Literal.number low = .ok lo)
    (hhigh : Literal.number high = .ok hi) (hle : lo.le hi) (htrimmed : Trimmed low.toList)
    (htrimmed' : Trimmed high.toList) : inRange.Accepts (Literal.rangeText low high) := by
  have hrange := Literal.range_rangeText hlow hhigh hle htrimmed htrimmed'
  exact ⟨.inRange lo hi, map_eq_ok_iff.2 ⟨(lo, hi), hrange, rfl⟩⟩

/-- What counts as one number is compared as that number. -/
theorem matches_number_iff_holds {relation : Relation} {text : String} {value : Value}
    {x y : Double} (h : Literal.number text = .ok x) (hvalue : value.number? = some y) :
    (number relation).Matches text value ↔ relation.holds y x := by
  rw [matches_number_iff h, hvalue]
  constructor
  · rintro ⟨_, heq, hholds⟩
    cases heq
    exact hholds
  · exact fun hholds => ⟨y, rfl, hholds⟩

/-- A range holds of what its bounds hold of. -/
theorem matches_rangeText_iff {low high : String} {lo hi : Double} {value : Value}
    (hlow : Literal.number low = .ok lo) (hhigh : Literal.number high = .ok hi)
    (haccepts : inRange.Accepts (Literal.rangeText low high)) :
    inRange.Matches (Literal.rangeText low high) value
      ↔ (number .greaterOrEqual).Matches low value ∧ (number .lessOrEqual).Matches high value := by
  -- Whatever padding there is, the bounds are the two numbers.
  obtain ⟨comparator, hread⟩ := haccepts
  obtain ⟨bounds, hrange, -⟩ := map_eq_ok_iff.1 hread
  obtain rfl := Literal.range_rangeText_unique hlow hhigh hrange
  rw [matches_inRange_iff hrange, matches_number_iff hlow, matches_number_iff hhigh]
  constructor
  · rintro ⟨y, hvalue, hlo, hhi⟩
    exact ⟨⟨y, hvalue, hlo⟩, y, hvalue, hhi⟩
  · rintro ⟨⟨y, hvalue, hlo⟩, y', hvalue', hhi⟩
    cases hvalue.symm.trans hvalue'
    exact ⟨y, hvalue, hlo, hhi⟩

/-- A number is a range of one. -/
theorem matches_equal_iff {text : String} {x : Double} {value : Value}
    (h : Literal.number text = .ok x) :
    (number .equal).Matches text value
      ↔ (number .greaterOrEqual).Matches text value ∧ (number .lessOrEqual).Matches text value := by
  rw [matches_number_iff h, matches_number_iff h, matches_number_iff h]
  constructor
  · rintro ⟨y, hvalue, hholds⟩
    obtain ⟨hge, hle⟩ := Double.eq_iff_le_le.1 hholds
    exact ⟨⟨y, hvalue, hge⟩, y, hvalue, hle⟩
  · rintro ⟨⟨y, hvalue, hge⟩, y', hvalue', hle⟩
    cases hvalue.symm.trans hvalue'
    exact ⟨y, hvalue, Double.eq_iff_le_le.2 ⟨hge, hle⟩⟩

end Operator

theorem Literal.ne_nan_of_number {text : String} {x : Double} (h : number text = .ok x) :
    x ≠ .nan := by
  obtain ⟨numeral, -, rfl⟩ := number_eq_ok_iff.1 h
  exact numeral.toDouble_ne_nan

/-! ### Coherence -/

/-- The value is a number. -/
inductive Value.IsNumber : Value → Prop
  | int (n : Int64) : IsNumber (.int n)
  | float {x : Double} (h : x ≠ .nan) : IsNumber (.float x)

open Operator

/-- A relation to a literal holds of the value if it holds between the exact
values of the double and of what the literal denotes. -/
def Value.ComparesAs (value : Value) (x : Double) : Prop :=
  ∀ relation text y, Literal.number text = .ok y →
    ((number relation).Matches text value
      ↔ ∃ p q, x.value? = some p ∧ y.value? = some q ∧ relation.Orders p q)

/-- What the numerical operators find of the value with one literal or another
goes together. -/
structure Value.ComparesCoherently (value : Value) : Prop where
  /-- A range holds of what its bounds hold of. The bounds may be any numbers in
  order that can be put into a range, and all can without blanks. -/
  range : ∀ low high lo hi, Literal.number low = .ok lo → Literal.number high = .ok hi →
    lo.le hi →
      (Trimmed low.toList → Trimmed high.toList → inRange.Accepts (Literal.rangeText low high))
      ∧ (inRange.Accepts (Literal.rangeText low high) →
        (inRange.Matches (Literal.rangeText low high) value
          ↔ (number .greaterOrEqual).Matches low value ∧ (number .lessOrEqual).Matches high value))
  /-- A number is a range of one. -/
  point : ∀ text x, Literal.number text = .ok x →
      (Trimmed text.toList → inRange.Accepts (Literal.rangeText text text))
      ∧ (inRange.Accepts (Literal.rangeText text text) →
        ((number .equal).Matches text value ↔ inRange.Matches (Literal.rangeText text text) value))
  /-- A number is below, at or above another, and never two of these. -/
  trichotomy : value.IsNumber → ∀ text x, Literal.number text = .ok x →
    ExactlyOne ((number .less).Matches text value) ((number .equal).Matches text value)
      ((number .greater).Matches text value)
  /-- Of two opposite relations one holds. -/
  opposite : value.IsNumber → ∀ text x, Literal.number text = .ok x →
    ((number .greaterOrEqual).Matches text value ↔ ¬ (number .less).Matches text value)
      ∧ ((number .lessOrEqual).Matches text value ↔ ¬ (number .greater).Matches text value)
  /-- Nothing holds of what is no number. -/
  outside : ¬ value.IsNumber → ∀ text,
    (∀ relation, ¬ (number relation).Matches text value) ∧ ¬ inRange.Matches text value
  /-- A double compares as the number that it is. -/
  float : ∀ x, value = .float x → value.ComparesAs x
  /-- An integer compares as the double nearest to it. -/
  integer : ∀ n, value = .int n → ∃ x, x.IsNearest n.toInt ∧ value.ComparesAs x

namespace Value

variable {value : Value}

/-- An integer counts as the double nearest to it. -/
theorem isNearest_int (n : Int64) : (Double.ofInt n.toInt).IsNearest n.toInt := by
  have hlow := n.le_toInt
  have hhigh := n.toInt_lt
  exact Double.isNearest_ofInt (by omega)

-- An integer between two doubles compares as one of them.
example : (Comparator.number .equal (.ofInt 9007199254740992)).compare (.int 9007199254740993) := by
  decide +kernel

theorem IsNumber.exists_number? (h : value.IsNumber) : ∃ y, value.number? = some y ∧ y ≠ .nan := by
  cases h with
  | int n =>
    refine ⟨.ofInt n.toInt, rfl, ?_⟩
    intro hnan
    obtain ⟨q, hvalue, -⟩ := isNearest_int n
    rw [hnan] at hvalue
    exact Double.not_hasValue_nan q hvalue
  | float hx => exact ⟨_, rfl, hx⟩

/-- A value compares as the double that it counts as. -/
theorem comparesAs_of_number? {x : Double} (h : value.number? = some x) : value.ComparesAs x :=
  fun _ _ _ hy => (matches_number_iff_holds hy h).trans Relation.holds_iff

/-- What is no number counts as none, or as one that is not comparable. -/
theorem number?_eq_some_nan (h : ¬ value.IsNumber) {y : Double} (hy : value.number? = some y) :
    y = .nan := by
  cases value with
  | int n => exact absurd (.int n) h
  | float x =>
    cases hy
    exact by_contra fun hnan => h (.float hnan)
  | bool | string | set => cases hy

/-- Numbers stand in one of three ways to a literal. -/
theorem IsNumber.trichotomy (h : value.IsNumber) {text : String} {x : Double}
    (hx : Literal.number text = .ok x) :
    ExactlyOne ((number .less).Matches text value) ((number .equal).Matches text value)
      ((number .greater).Matches text value) := by
  -- Both sides are numbers: the value is one, and no literal denotes another thing.
  obtain ⟨y, hvalue, hy⟩ := h.exists_number?
  simp only [matches_number_iff_holds hx hvalue, Relation.holds]
  exact Double.exactlyOne hy (Literal.ne_nan_of_number hx)

/-- Of two opposite relations to a literal one holds. -/
theorem IsNumber.opposite (h : value.IsNumber) {text : String} {x : Double}
    (hx : Literal.number text = .ok x) :
    ((number .greaterOrEqual).Matches text value ↔ ¬ (number .less).Matches text value)
      ∧ ((number .lessOrEqual).Matches text value ↔ ¬ (number .greater).Matches text value) := by
  obtain ⟨y, hvalue, hy⟩ := h.exists_number?
  have hne := Literal.ne_nan_of_number hx
  simp only [matches_number_iff_holds hx hvalue, Relation.holds]
  rw [Double.lt_eq_not_le hne hy, Double.lt_eq_not_le hy hne]
  simp

/-- What is no number does not compare. -/
theorem not_matches (h : ¬ value.IsNumber) (text : String) :
    (∀ relation, ¬ (number relation).Matches text value) ∧ ¬ inRange.Matches text value := by
  constructor
  · rintro relation ⟨comparator, hread, hcompare⟩
    obtain ⟨x, hx, rfl⟩ := map_eq_ok_iff.1 hread
    obtain ⟨y, hvalue, hholds⟩ := (matches_number_iff hx).1 ⟨_, hread, hcompare⟩
    -- A relation that holds has exact values on both sides.
    obtain ⟨p, q, hnan, -⟩ := Relation.holds_iff.1 hholds
    rw [number?_eq_some_nan h hvalue] at hnan
    cases hnan
  · rintro ⟨comparator, hread, hcompare⟩
    obtain ⟨⟨lo, hi⟩, hrange, rfl⟩ := map_eq_ok_iff.1 hread
    obtain ⟨y, hvalue, -, hle⟩ := (matches_inRange_iff hrange).1 ⟨_, hread, hcompare⟩
    obtain ⟨p, q, hnan, -⟩ := Double.le_iff.1 hle
    rw [number?_eq_some_nan h hvalue] at hnan
    cases hnan

/-- The comparisons with one value go together. -/
theorem comparesCoherently (value : Value) : value.ComparesCoherently where
  range _ _ _ _ hlow hhigh hle :=
    ⟨accepts_rangeText hlow hhigh hle, matches_rangeText_iff hlow hhigh⟩
  point text x hx := by
    have hle : x.le x := Double.le_refl (Literal.ne_nan_of_number hx)
    refine ⟨fun htrimmed => accepts_rangeText hx hx hle htrimmed htrimmed, fun haccepts => ?_⟩
    rw [matches_rangeText_iff hx hx haccepts, matches_equal_iff hx]
  trichotomy h _ _ := h.trichotomy
  opposite h _ _ := h.opposite
  outside := not_matches
  float x hx := comparesAs_of_number? (by rw [hx, number?])
  integer n hn := ⟨.ofInt n.toInt, isNearest_int n, comparesAs_of_number? (by rw [hn, number?])⟩

end Value

end EventRules

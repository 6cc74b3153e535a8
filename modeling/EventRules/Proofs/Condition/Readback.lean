import EventRules.Proofs.Condition.Ranges
import EventRules.Proofs.Firing.Modest
import EventRules.Proofs.Number.Digits

/-!
# `EventRules.Proofs.Condition.Readback`: a comparator read from its own text

A comparator is shown with the symbol of its operator and a right-hand side. The
operator reads that right-hand side as the same comparator again, with two
exceptions that no literal denotes: an infinity, which comes of a numeral that is
out of bounds, and a list without items, which comes of one whose items are
blanks.

* `Literal.number_text_iff` and `Literal.range_text_iff`: finite numbers are
  written as numerals, and others are not.
* `Needle.ofText_display_iff`: what the items of a list become has no comma, no
  bracket and no blank at an end, and is in lower case. So it may be written in
  another order with single commas and is read as the same set.

`Operator.read_rightText_iff` says so of every operator and every text that it
takes, and that the two exceptions are never read back.
-/

set_option autoImplicit false

namespace EventRules

open Text

/-! ### Numbers -/

/-- The double is a number and no infinity. -/
def Double.IsFinite : Double → Prop
  | finite .. => True
  | nan | infinite _ => False

theorem Double.IsFinite.exists_spells {x : Double} (h : x.IsFinite) :
    ∃ numeral : Numeral, numeral.Spells x.text.toList ∧ numeral.toDouble = x := by
  cases x with
  | finite negative quanta hquanta => exact Double.exists_spells_text hquanta
  | nan | infinite => cases h

theorem Text.toList_bracketed (body : String) :
    ("[" ++ body ++ "]").toList = '[' :: (body.toList ++ [']']) := by
  rw [String.toList_append, String.toList_append]
  rfl

namespace Literal

/-- A number is read back if it is finite. -/
theorem number_text_iff {x : Double} : number x.text = .ok x ↔ x.IsFinite := by
  constructor
  · intro h
    cases x with
    | finite => trivial
    | nan => cases h
    | infinite negative => cases negative <;> cases h
  · intro h
    obtain ⟨numeral, hspells, hvalue⟩ := h.exists_spells
    rw [number_eq_ok_iff, hspells.trimmed.trimChars_eq]
    exact ⟨numeral, hspells, hvalue.symm⟩

theorem trimmed_text {x : Double} (h : x.IsFinite) : Trimmed x.text.toList := by
  obtain ⟨numeral, hspells, -⟩ := h.exists_spells
  exact hspells.trimmed

/-- A range between finite numbers is read back. -/
theorem range_text {lo hi : Double} (hlo : lo.IsFinite) (hhi : hi.IsFinite) (hle : lo.le hi) :
    range (rangeText lo.text hi.text) = .ok (lo, hi) :=
  range_rangeText (number_text_iff.2 hlo) (number_text_iff.2 hhi) hle (trimmed_text hlo)
    (trimmed_text hhi)

theorem paddedNumeral?_infinite (negative : Bool) (rest : List Char) :
    paddedNumeral? ((Double.infinite negative).text.toList ++ rest) = none := by
  cases negative <;> rfl

/-- A range with an infinite bound is not. -/
theorem bounds?_text_eq_none {lo hi : Double} (hlo : lo ≠ .nan) (hhi : hi ≠ .nan)
    (h : ¬ (lo.IsFinite ∧ hi.IsFinite)) : bounds? (rangeText lo.text hi.text) = none := by
  have htext := trimChars_rangeText lo.text hi.text
  cases lo with
  | nan => exact absurd rfl hlo
  | infinite negative =>
    simp only [bounds?, htext, after?, if_pos, Option.bind_eq_bind, Option.bind_some,
      paddedNumeral?_infinite, Option.bind_none]
  | finite negative quanta hquanta =>
    cases hi with
    | nan => exact absurd rfl hhi
    | finite => exact absurd ⟨trivial, trivial⟩ h
    | infinite negative' =>
      -- The first bound is read up to the comma, and the second not at all.
      obtain ⟨low, hlow, -⟩ := @Double.exists_spells_text negative quanta hquanta
      have hfirst := paddedNumeral?_append hlow (List.forall_mem_nil _) (List.forall_mem_nil _)
        (c := ',') rfl ((Double.infinite negative').text.toList ++ [']']) (.cons rfl (by decide) _)
      rw [List.nil_append, List.nil_append] at hfirst
      simp only [bounds?, htext, after?, if_pos, Option.bind_eq_bind, Option.bind_some, hfirst,
        paddedNumeral?_infinite, Option.bind_none]

/-- A range is read back if its bounds are finite. -/
theorem range_text_iff {lo hi : Double} (hlo : lo ≠ .nan) (hhi : hi ≠ .nan) (hle : lo.le hi) :
    range (rangeText lo.text hi.text) = .ok (lo, hi) ↔ lo.IsFinite ∧ hi.IsFinite := by
  constructor
  · intro h
    by_contra hnot
    rw [range, bounds?_text_eq_none hlo hhi hnot] at h
    cases h
  · rintro ⟨hlo, hhi⟩
    exact range_text hlo hhi hle

end Literal

/-! ### Lists -/

/-- What an item of a list becomes: a text in lower case that may stand between
commas as it is. -/
structure IsOption (option : String) : Prop where
  ne_nil : option.toList ≠ []
  trimmed : Trimmed option.toList
  comma : ',' ∉ option.toList
  closing : ']' ∉ option.toList
  small : ∀ c ∈ option.toList, IsSmall c

namespace Literal

/-- A piece has none of the commas that it is cut at. -/
theorem mem_of_mem_splitOn {body piece : List Char} (hpiece : piece ∈ body.splitOn ',') {c : Char}
    (hc : c ∈ piece) : c ∈ body ∧ c ≠ ',' := by
  have hmem : c ∈ (body.splitOn ',').flatten := List.mem_flatten_of_mem hpiece hc
  rw [List.splitOn_eq_splitOnP, flatten_splitOnP] at hmem
  simpa using hmem

theorem mem_of_mem_trimChars {cs : List Char} {c : Char} (h : c ∈ trimChars cs) : c ∈ cs :=
  (trimChars_sublist cs).subset h

/-- The items of a list in lower case. -/
theorem isOption_of_mem_items {text : String} {items : List String}
    (h : items? (lower text) = some items) : ∀ item ∈ items, IsOption item := by
  obtain ⟨body, hlist, rfl⟩ := items?_eq_some_iff.1 h
  intro item hitem
  obtain ⟨cs, hcs, rfl⟩ := List.mem_map.1 hitem
  obtain ⟨hpiece, hne⟩ := List.mem_filter.1 hcs
  obtain ⟨piece, hmem, rfl⟩ := List.mem_map.1 hpiece
  have hbody : ∀ c ∈ trimChars piece, c ∈ body ∧ c ≠ ',' :=
    fun c hc => mem_of_mem_splitOn hmem (mem_of_mem_trimChars hc)
  have hsmall : ∀ c ∈ body, IsSmall c := by
    intro c hc
    refine @isSmall_of_mem_lower text c (mem_of_mem_trimChars ?_)
    rw [hlist.bracketed]
    exact List.mem_cons_of_mem _ (List.mem_append_left _ hc)
  obtain ⟨-, -, -, -, -, htrimmed⟩ := exists_trimChars piece
  constructor <;> rw [String.toList_ofList]
  · simpa using hne
  · exact htrimmed
  · exact fun hc => (hbody _ hc).2 rfl
  · exact fun hc => hlist.closed (hbody _ hc).1
  · exact fun c hc => hsmall c (hbody c hc).1

/-- Options between commas, in brackets, are a list of them. -/
theorem items?_intercalate {options : List String} (hne : options ≠ [])
    (h : ∀ option ∈ options, IsOption option) :
    items? ("[" ++ ",".intercalate options ++ "]") = some options := by
  have hsplit : (",".intercalate options).toList.splitOn ',' = options.map String.toList := by
    rw [String.toList_intercalate]
    refine List.splitOn_intercalate ',' ?_ (by simpa using hne)
    simpa using fun option hoption => (h option hoption).comma
  have htrim : (options.map String.toList).map trimChars = options.map String.toList := by
    rw [List.map_map]
    exact List.map_congr_left fun option hoption => (h option hoption).trimmed.trimChars_eq
  have hpieces : ∀ piece ∈ options.map String.toList, piece ≠ [] := by
    simpa using fun option hoption => (h option hoption).ne_nil
  have hkept : (options.map String.toList).filter (!·.isEmpty) = options.map String.toList := by
    refine List.filter_eq_self.2 fun piece hpiece => ?_
    simpa using hpieces piece hpiece
  have hclosed : ']' ∉ (",".intercalate options).toList := by
    intro hmem
    refine (Separated.intercalate hne).forall_mem (p := (· ≠ ']')) ?_ (by decide) ?_ ']' hmem rfl
    · rintro c hindent rfl
      cases hindent
    · rintro option hoption c hc rfl
      exact (h option hoption).closing hc
  refine items?_eq_some_iff.2 ⟨(",".intercalate options).toList, ⟨?_, hclosed, ?_⟩, ?_⟩
  · rw [toList_bracketed, trimChars_bracketed]
  · rw [hsplit]
    exact hpieces
  · rw [itemsOf, hsplit, htrim, hkept, List.map_map]
    simp only [Function.comp_def, String.ofList_toList, List.map_id']

/-- Such a list is in lower case. -/
theorem lower_intercalate {options : List String} (hne : options ≠ [])
    (h : ∀ option ∈ options, IsOption option) :
    lower ("[" ++ ",".intercalate options ++ "]") = "[" ++ ",".intercalate options ++ "]" := by
  have hblank : ∀ c, isIndent c → IsSmall c := fun c hc =>
    isSmall_of_isListMark (isListMark_of_isBlank (isBlank_of_isIndent hc))
  have hbody := (Separated.intercalate hne).forall_mem hblank (isSmall_of_isListMark rfl)
    fun option hoption => (h option hoption).small
  refine lower_of_isSmall ?_
  rw [toList_bracketed, List.forall_mem_cons, List.forall_mem_append, List.forall_mem_singleton]
  exact ⟨isSmall_of_isListMark rfl, hbody, isSmall_of_isListMark rfl⟩

end Literal

/-- A set is made from its members. -/
theorem StringSet.ofList_toList (set : StringSet) : ofList set.toList = set :=
  eq_of_mem_iff fun _ => mem_ofList

namespace Needle

/-- The needle is no empty list. -/
def IsWritable : Needle → Prop
  | text _ => True
  | anyOf options => options ≠ .empty

theorem ofText_cases (right : String) :
    (Literal.items? (lower right) = none ∧ ofText right = .text (lower right))
      ∨ ∃ items, Literal.items? (lower right) = some items
          ∧ ofText right = .anyOf (.ofList items) := by
  rw [ofText]
  cases Literal.items? (lower right) with
  | none => exact .inl ⟨rfl, rfl⟩
  | some items => exact .inr ⟨items, rfl, rfl⟩

/-- Options that are not none are read back. -/
theorem ofText_display_anyOf {options : StringSet} (hne : options ≠ .empty)
    (h : ∀ option ∈ options, IsOption option) :
    ofText (anyOf options).display = .anyOf options := by
  have hlist : options.toList ≠ [] := by
    intro hnil
    exact hne (StringSet.eq_of_mem_iff fun u => by show u ∈ options.toList ↔ u ∈ []; rw [hnil])
  rw [display, ofText, Literal.lower_intercalate hlist h, Literal.items?_intercalate hlist h]
  simp only [StringSet.ofList_toList]

/-- A needle is read back unless it is an empty list. -/
theorem ofText_display_iff (right : String) :
    ofText (ofText right).display = ofText right ↔ (ofText right).IsWritable := by
  rcases ofText_cases right with ⟨hnone, htext⟩ | ⟨items, hitems, htext⟩
  · rw [htext, display, ofText, lower_lower, hnone]
    exact iff_of_true rfl trivial
  · rw [htext, IsWritable]
    by_cases hempty : StringSet.ofList items = .empty
    · have hread : ofText (anyOf .empty).display ≠ .anyOf .empty := by decide +kernel
      rw [hempty]
      exact iff_of_false hread fun hne => hne rfl
    · have hoptions : ∀ option ∈ StringSet.ofList items, IsOption option := by
        intro option hoption
        exact Literal.isOption_of_mem_items hitems option (StringSet.mem_ofList.1 hoption)
      exact iff_of_true (ofText_display_anyOf hempty hoptions) hempty

end Needle

/-! ### Comparators -/

namespace Comparator

/-- There is a literal for the right-hand side: its numbers are finite, and its
list is not empty. -/
def IsWritable : Comparator → Prop
  | number _ right => right.IsFinite
  | contains right => right.IsWritable
  | inRange lo hi => lo.IsFinite ∧ hi.IsFinite
  | startsWith _ | endsWith _ | is _ => True

end Comparator

namespace Operator

theorem operator_of_read {operator : Operator} {text : String} {comparator : Comparator}
    (h : operator.read text = .ok comparator) : comparator.operator = operator := by
  cases operator with
  | number relation =>
    obtain ⟨numeral, -, rfl⟩ := read_number_eq_ok_iff.1 h
    rfl
  | inRange =>
    obtain ⟨lo, hi, -, -, rfl⟩ := read_inRange_eq_ok_iff.1 h
    rfl
  | _ =>
    cases h
    rfl

theorem read_number_text_iff (relation : Relation) (x : Double) :
    (number relation).read x.text = .ok (.number relation x) ↔ x.IsFinite := by
  rw [read, map_eq_ok_iff, ← Literal.number_text_iff]
  constructor
  · rintro ⟨y, hread, hy⟩
    cases hy
    exact hread
  · exact fun hread => ⟨x, hread, rfl⟩

theorem read_inRange_text_iff {lo hi : Double} (h : (Comparator.inRange lo hi).HoldsNumbers) :
    inRange.read (Comparator.inRange lo hi).rightText = .ok (.inRange lo hi)
      ↔ lo.IsFinite ∧ hi.IsFinite := by
  obtain ⟨hlo, hhi, hle⟩ := h
  show (Literal.range (Literal.rangeText lo.text hi.text)).map _ = _ ↔ _
  rw [map_eq_ok_iff, ← Literal.range_text_iff hlo hhi hle]
  constructor
  · rintro ⟨⟨low, high⟩, hread, heq⟩
    cases heq
    exact hread
  · exact fun hread => ⟨(lo, hi), hread, rfl⟩

theorem read_contains_display_iff (text : String) :
    contains.read (Needle.ofText text).display = .ok (.contains (.ofText text))
      ↔ (Needle.ofText text).IsWritable := by
  rw [← Needle.ofText_display_iff, read, Except.ok.injEq, Comparator.contains.injEq]

/-- A comparator is shown with the symbol of its operator, a space and a
right-hand side. That is read as the same comparator if there is a literal for
it, and is not if there is none. -/
theorem read_rightText_iff (operator : Operator) (text : String) (comparator : Comparator)
    (h : operator.read text = .ok comparator) :
    comparator.text = operator.symbol ++ " " ++ comparator.rightText
      ∧ (operator.read comparator.rightText = .ok comparator ↔ comparator.IsWritable) := by
  refine ⟨by rw [Comparator.text, operator_of_read h], ?_⟩
  have hnumbers := holdsNumbers_of_read h
  cases operator with
  | number relation =>
    obtain ⟨x, -, rfl⟩ := map_eq_ok_iff.1 h
    exact read_number_text_iff relation x
  | inRange =>
    obtain ⟨⟨lo, hi⟩, -, rfl⟩ := map_eq_ok_iff.1 h
    exact read_inRange_text_iff hnumbers
  | contains =>
    cases h
    exact read_contains_display_iff text
  | startsWith | endsWith | is =>
    cases h
    refine iff_of_true ?_ trivial
    rw [Comparator.rightText, read, lower_lower]

/-- Items are lowered, the blank one is left out, and the others are shown in
their order. -/
theorem read_rightText_iff_sigma :
    contains.read "[ΟΔΟΣ, ,b]" = .ok (.contains (.anyOf (.ofList ["b", "οδος"])))
      ∧ (Comparator.contains (.anyOf (.ofList ["b", "οδος"]))).text = "CONTAINS [b,οδος]"
      ∧ contains.read "[b,οδος]" = .ok (.contains (.anyOf (.ofList ["b", "οδος"]))) := by
  have hread : contains.read "[ΟΔΟΣ, ,b]"
      = .ok (.contains (.anyOf (.ofList ["b", "οδος"]))) := by
    decide +kernel
  have hright : (Comparator.contains (.anyOf (.ofList ["b", "οδος"]))).rightText
      = "[b,οδος]" := by
    decide +kernel
  have hwritable : StringSet.ofList ["b", "οδος"] ≠ .empty := by decide +kernel
  obtain ⟨htext, hiff⟩ := read_rightText_iff _ _ _ hread
  rw [hright] at htext hiff
  exact ⟨hread, htext, hiff.2 hwritable⟩

/-- A list of a blank item is empty. It is shown as a pair of brackets, which is
no list. -/
theorem read_rightText_blankItem :
    ¬ ∀ (operator : Operator) (text : String) (comparator : Comparator),
      operator.read text = .ok comparator →
        comparator.text = operator.symbol ++ " " ++ comparator.rightText
          ∧ operator.read comparator.rightText = .ok comparator := by
  intro hall
  have hread : contains.read "[ ]" = .ok (.contains (.anyOf .empty)) := by decide +kernel
  have hright : contains.read (Comparator.contains (.anyOf .empty)).rightText
      = .ok (.contains (.text "[]")) := by
    decide +kernel
  have hback := (hall _ _ _ hread).2
  rw [hright] at hback
  cases hback

end Operator

end EventRules

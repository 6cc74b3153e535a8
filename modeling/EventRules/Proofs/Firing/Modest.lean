import EventRules.Number.Shortest
import EventRules.Proofs.Firing.Echo
import EventRules.Proofs.Script.Signs
import EventRules.Proofs.Text.Upper
import Mathlib.Data.List.TakeDrop

/-!
# `EventRules.Proofs.Firing.Modest`: comparators that bring in no signs

A comparator is written with no span around its right-hand side, so a
percent sign in it would open a span, and a number sign may begin a
comment. A platform is modest if its comparators have no more of these
signs than the texts they were made from.

The operators are like that (`Operator.signs_text_le`): lower case brings
in no signs, the items of a list have those of the list at most, and a
number has none. So what is needed of a platform is only that its own
comparators are.
-/

set_option autoImplicit false

namespace EventRules

open Text

/-! ### Lower case -/

namespace Text

theorem isSign_ofNat {code : Nat} (h : 0x26 ≤ code) : isSign (Char.ofNat code) = false := by
  by_cases hvalid : code.isValidChar
  · have hcode : ∀ c : Char, c.toNat < 0x26 → Char.ofNatAux code hvalid ≠ c := by
      rintro c hc rfl
      exact absurd h (Nat.not_le.2 hc)
    rw [Char.ofNat, dif_pos hvalid, isSign, Bool.or_eq_false_iff, decide_eq_false_iff_not,
      decide_eq_false_iff_not]
    exact ⟨hcode '%' (by decide), hcode '#' (by decide)⟩
  · rw [Char.ofNat, dif_neg hvalid]
    rfl

theorem isSign_of_le {c : Char} (h : 0x26 ≤ c.toNat) : isSign c = false := by
  have hsign := isSign_ofNat h
  rw [Char.ofNat_toNat] at hsign
  exact hsign

/-- The table maps to no code point below those of the letters. -/
theorem le_of_mem_lowerRuns : ∀ run ∈ lowerRuns, 0x26 ≤ (run.first : Int) + run.shift := by
  decide +kernel

theorem le_of_mem_lowerSequences : ∀ entry ∈ lowerSequences, ∀ code ∈ entry.2, 0x26 ≤ code := by
  decide +kernel

theorem isSign_mapCase_lower {c : Char} (hc : 128 ≤ c.toNat) :
    ∀ d ∈ mapCase lowerRuns lowerSequences c, isSign d = false := by
  rcases mapCase_cases lowerRuns lowerSequences c with
    ⟨codes, hmem, hmap⟩ | ⟨run, hmem, hcovers, hmap⟩ | hsame
  · rw [hmap]
    intro d hd
    obtain ⟨code, hcode, rfl⟩ := List.mem_map.1 hd
    exact isSign_ofNat (le_of_mem_lowerSequences _ hmem code hcode)
  · have hshift := le_of_mem_lowerRuns run hmem
    simp only [CaseRun.covers, Bool.and_eq_true, decide_eq_true_eq] at hcovers
    rw [hmap]
    exact List.forall_mem_singleton.2 (isSign_ofNat (by omega))
  · rw [hsame]
    exact List.forall_mem_singleton.2 (isSign_of_le (by omega))

theorem signs_lowerChar (c : Char) : signs (lowerChar c) ≤ signs [c] := by
  rw [lowerChar]
  split
  · rcases toLower_cases c with ⟨hletter, hlower⟩ | ⟨-, hsame⟩
    · have hnone : signs [c.toLower] = 0 :=
        signs_eq_zero (List.forall_mem_singleton.2 (isSign_of_le (by omega)))
      rw [hnone]
      exact Nat.zero_le _
    · exact Nat.le_of_eq (by rw [hsame])
  · next hc =>
    rw [signs_eq_zero (isSign_mapCase_lower (Nat.not_lt.1 hc))]
    exact Nat.zero_le _

theorem signs_lower (text : String) : signs (lower text).toList ≤ signs text.toList := by
  have hafter : ∀ before cs : List Char, signs (lowerAfter before cs) ≤ signs cs := by
    intro before cs
    induction before, cs using lowerAfter.induct with
    | case1 => exact Nat.le_refl _
    | case2 before after ih =>
      have hnone : signs [lowerSigma before after] = 0 := by
        rw [lowerSigma]
        split <;> rfl
      rw [lowerAfter, signs_cons, hnone, signs_cons]
      omega
    | case3 before c after hsigma ih =>
      have hchar := signs_lowerChar c
      rw [lowerAfter, signs_append, signs_cons]
      · omega
      · exact hsigma
  rw [lower, String.toList_ofList]
  exact hafter [] text.toList

end Text

/-! ### Lists -/

theorem trimChars_sublist (cs : List Char) : (trimChars cs).Sublist cs := by
  rw [trimChars, ← List.reverse_sublist, List.reverse_reverse]
  exact (List.dropWhile_sublist _).trans (List.reverse_sublist.2 (List.dropWhile_sublist _))

/-- What is between separators is the whole without the separators. -/
theorem flatten_splitOnP {β : Type} (p : β → Bool) (xs : List β) :
    (xs.splitOnP p).flatten = xs.filter (!p ·) := by
  induction xs with
  | nil => rfl
  | cons x xs ih =>
    rw [List.splitOnP_cons_eq_if_modifyHead]
    cases hp : p x with
    | true => simp [hp, ih]
    | false =>
      obtain ⟨first, rest, hsplit⟩ := List.exists_cons_of_ne_nil (List.splitOnP_ne_nil p xs)
      rw [hsplit] at ih
      simp [hp, hsplit, ← ih]

theorem signs_flatten_map_trimChars (pieces : List (List Char)) :
    signs (pieces.map trimChars).flatten ≤ signs pieces.flatten := by
  induction pieces with
  | nil => exact Nat.le_refl _
  | cons piece pieces ih =>
    have hpiece := signs_le_of_sublist (trimChars_sublist piece)
    rw [List.map_cons, List.flatten_cons, List.flatten_cons, signs_append, signs_append]
    omega

namespace Literal

theorem after?_sublist {c : Char} {text rest : List Char} (h : after? c text = some rest) :
    rest.Sublist text := by
  cases text with
  | nil => cases h
  | cons d ds =>
    rw [after?] at h
    split at h
    · cases h
      exact List.sublist_cons_self d _
    · cases h

theorem bracketed?_sublist {text : String} {body : List Char} (h : bracketed? text = some body) :
    body.Sublist text.toList := by
  obtain ⟨rest, hrest, h⟩ := Option.bind_eq_some_iff.1 h
  rw [List.span_eq_takeWhile_dropWhile] at h
  split at h
  · next hspan =>
    cases h
    obtain ⟨rfl, -⟩ := Prod.mk.inj hspan
    exact (List.takeWhile_sublist _).trans
      ((after?_sublist hrest).trans (trimChars_sublist _))
  · cases h

/-- The items of a list have no more signs than the list. -/
theorem signs_items? {text : String} {items : List String} (h : items? text = some items) :
    signs (items.flatMap String.toList) ≤ signs text.toList := by
  obtain ⟨body, hbody, h⟩ := Option.bind_eq_some_iff.1 h
  simp only at h
  split at h
  · cases h
  · cases h
    have hpieces : signs (body.splitOnP (· = ',')).flatten ≤ signs body := by
      rw [flatten_splitOnP]
      exact signs_le_of_sublist List.filter_sublist
    have htrimmed := signs_flatten_map_trimChars (body.splitOnP (· = ','))
    have hbody := signs_le_of_sublist (bracketed?_sublist hbody)
    -- The pieces that are left out are empty.
    have hkept : ∀ pieces : List (List Char),
        ((pieces.filter (!·.isEmpty)).map String.ofList).flatMap String.toList
          = pieces.flatten := by
      intro pieces
      induction pieces with
      | nil => rfl
      | cons piece pieces ih => cases piece <;> simp_all
    rw [hkept]
    omega

end Literal

/-! ### Sets -/

namespace StringSet

theorem signs_insert (s : String) (set : StringSet) :
    signs ((set.insert s).toList.flatMap String.toList)
      ≤ signs s.toList + signs (set.toList.flatMap String.toList) := by
  have hordered : ∀ texts : List String, signs ((insertOrdered s texts).flatMap String.toList)
      ≤ signs s.toList + signs (texts.flatMap String.toList) := by
    intro texts
    induction texts with
    | nil => simp [insertOrdered]
    | cons t rest ih =>
      rw [insertOrdered]
      split
      · simp
      split
      · simp only [List.flatMap_cons, signs_append]
        omega
      · exact Nat.le_add_left _ _
  exact hordered set.toList

/-- The members of a set made from a list have no more signs than the
list. -/
theorem signs_ofList (texts : List String) :
    signs ((ofList texts).toList.flatMap String.toList)
      ≤ signs (texts.flatMap String.toList) := by
  have hfold : ∀ (texts : List String) (set : StringSet),
      signs ((texts.foldl (fun set s => set.insert s) set).toList.flatMap String.toList)
        ≤ signs (set.toList.flatMap String.toList) + signs (texts.flatMap String.toList) := by
    intro texts
    induction texts with
    | nil => exact fun set => Nat.le_refl _
    | cons s texts ih =>
      intro set
      have hrest := ih (set.insert s)
      have hinsert := signs_insert s set
      rw [List.foldl_cons, List.flatMap_cons, signs_append]
      omega
  have hempty := hfold texts empty
  rw [show signs (empty.toList.flatMap String.toList) = 0 from rfl, Nat.zero_add] at hempty
  exact hempty

end StringSet

/-! ### Numbers -/

namespace Double

theorem signs_toDigits (n : Nat) : signs (Nat.toDigits 10 n) = 0 := by
  refine signs_eq_zero fun c hc => isSign_of_le ?_
  have hdigit := Nat.isDigit_of_mem_toDigits (by decide) (by decide) hc
  simp only [Char.isDigit, Bool.and_eq_true, decide_eq_true_eq, ge_iff_le,
    UInt32.le_iff_toNat_le] at hdigit
  have hzero : 0x30 ≤ c.toNat := hdigit.1
  omega

theorem signs_replicate_zero (n : Nat) : signs (List.replicate n '0') = 0 :=
  signs_eq_zero fun _ hc => List.eq_of_mem_replicate hc ▸ rfl

/-- Zeros and a point are no signs. -/
theorem signs_positional (digits : List Char) (scale : Nat) :
    signs (positional digits scale) = signs digits := by
  have hpoint : signs ['.'] = 0 := rfl
  have hfront : signs ['0', '.'] = 0 := rfl
  rw [positional]
  split
  · rw [signs_append, signs_replicate_zero, Nat.add_zero]
  · simp only
    split
    · show signs (['0', '.'] ++ List.replicate _ '0' ++ digits) = _
      rw [signs_append, signs_append, hfront, signs_replicate_zero, Nat.zero_add]
    · rw [signs_append, signs_cons, hpoint, Nat.zero_add, ← signs_append, List.take_append_drop]

/-- A number is written without signs. -/
theorem signs_text (x : Double) : signs x.text.toList = 0 := by
  cases x with
  | nan => rfl
  | infinite negative => cases negative <;> rfl
  | finite negative quanta representable =>
    have hquanta : signs (quantaText quanta) = 0 := by
      rw [quantaText]
      split
      · rfl
      · rw [signs_positional, signs_toDigits]
    have hsign : signs (if negative then ['-'] else []) = 0 := by cases negative <;> rfl
    rw [text, String.toList_ofList, signs_append, hquanta, hsign]

end Double

/-! ### Operators -/

theorem Needle.signs_display (right : String) :
    signs (ofText right).display.toList ≤ signs right.toList := by
  have hlower := signs_lower right
  rw [ofText]
  cases hitems : Literal.items? (lower right) with
  | none => exact hlower
  | some items =>
    have hset := StringSet.signs_ofList items
    have hlist := Literal.signs_items? hitems
    have hopen : signs "[".toList = 0 := rfl
    have hclose : signs "]".toList = 0 := rfl
    simp only [display]
    rw [String.toList_append, String.toList_append, signs_append, signs_append, hopen, hclose,
      signs_intercalate rfl]
    omega

namespace Operator

theorem signs_symbol (operator : Operator) : signs operator.symbol.toList = 0 := by
  cases operator with
  | number relation => cases relation <;> rfl
  | _ => rfl

/-- An operator shows no more signs than the text on its right. -/
theorem signs_text_le (operator : Operator) {right : String} {comparator : Comparator}
    (h : operator.read right = .ok comparator) :
    signs comparator.text.toList ≤ signs right.toList := by
  have hright : signs comparator.rightText.toList ≤ signs right.toList := by
    cases operator with
    | number relation =>
      obtain ⟨number, -, rfl⟩ := map_eq_ok_iff.1 h
      rw [Comparator.rightText, Double.signs_text]
      exact Nat.zero_le _
    | inRange =>
      obtain ⟨⟨lo, hi⟩, -, rfl⟩ := map_eq_ok_iff.1 h
      rw [Comparator.rightText]
      simp only [String.toList_append, signs_append, Double.signs_text]
      exact Nat.zero_le _
    | contains =>
      cases h
      exact Needle.signs_display right
    | startsWith | endsWith | is =>
      cases h
      exact signs_lower right
  have hsymbol := signs_symbol comparator.operator
  have hspace : signs " ".toList = 0 := rfl
  rw [Comparator.text, String.toList_append, String.toList_append, signs_append, signs_append,
    hsymbol, hspace]
  omega

end Operator

/-! ### Platforms -/

variable {φ ε : Type}

/-- The factory makes comparators with no more signs than the texts they
are made from. -/
def ComparatorFactory.Modest (factory : ComparatorFactory) : Prop :=
  ∀ value comparator, factory value = .ok comparator →
    signs comparator.text.toList ≤ signs value.toList

theorem Operator.modest (operator : Operator) : ComparatorFactory.Modest operator.read :=
  fun _ _ => operator.signs_text_le

/-- All comparators on the platform are modest. -/
def Platform.Modest (platform : Platform φ ε) : Prop :=
  ∀ symbol factory, platform.comparator? symbol = some factory → factory.Modest

/-- The field and the value are different words. -/
theorem Predicate.signs_divide? {words : List String} {field symbol value : String}
    (h : divide? words = some (field, symbol, value)) :
    signs field.toList + signs value.toList ≤ signs (words.flatMap String.toList) := by
  cases words with
  | nil => cases h
  | cons first rest =>
    rw [divide?] at h
    split at h
    · cases h
    · rw [Option.some.injEq, Prod.mk.injEq, Prod.mk.injEq] at h
      obtain ⟨rfl, -, rfl⟩ := h
      have hrest : ∀ n, signs ((rest.drop n).flatMap String.toList)
          ≤ signs (rest.flatMap String.toList) := by
        intro n
        conv => rhs; rw [← List.take_append_drop n rest]
        rw [List.flatMap_append, signs_append]
        exact Nat.le_add_left _ _
      rw [signs_intercalate rfl, List.flatMap_cons, signs_append]
      exact Nat.add_le_add_left (hrest _) _

/-- A predicate has no more signs than the tokens it was read from. -/
theorem Predicate.signs_text_le {platform : Platform φ ε} (hmodest : platform.Modest)
    {tokens : List Token} {predicate : Predicate}
    (h : ofTokens platform tokens = .ok predicate) :
    signs predicate.text.toList ≤ Token.signs tokens := by
  rw [ofTokens] at h
  cases hdivide : divide? (Token.texts tokens) with
  | none =>
    rw [hdivide] at h
    cases h
  | some parts =>
    obtain ⟨field, symbol, value⟩ := parts
    rw [hdivide] at h
    simp only at h
    cases hfactory : platform.comparator? symbol with
    | none =>
      rw [hfactory] at h
      cases h
    | some factory =>
      rw [hfactory] at h
      obtain ⟨comparator, hcomparator, rfl⟩ := map_eq_ok_iff.1 h
      have hright := hmodest symbol factory hfactory value comparator hcomparator
      have hparts : signs field.toList + signs value.toList ≤ Token.signs tokens :=
        signs_divide? hdivide
      have hspace : signs " ".toList = 0 := rfl
      rw [text, String.toList_append, String.toList_append, signs_append, signs_append, hspace]
      simp only
      omega

namespace Echo

/-- The operators are modest, so the echo host is. -/
theorem modest : platform.Modest := by
  intro symbol factory hfactory
  rw [platform_eq, Platform.addStandardComparators] at hfactory
  rcases Platform.comparator?_foldl hfactory with ⟨operator, rfl⟩ | hbefore
  · exact operator.modest
  · cases (comparator?_ofName symbol).symm.trans hbefore

end Echo

end EventRules

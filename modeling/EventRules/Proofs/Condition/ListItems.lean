import EventRules.Proofs.Condition.Numerals
import EventRules.Proofs.Condition.Occurrences
import Mathlib.Data.List.TakeWhile

/-!
# `EventRules.Proofs.Condition.ListItems`: what `CONTAINS` makes of a list

`CONTAINS` puts its right-hand side into lower case as a whole and looks for
a list there. What it finds are the items of the list that the text is, each
in lower case: a capital sigma does not look beyond the comma, bracket or
blank at the end of its item.

* `Text.lowerAfter_append_mark`: the lower case of a text on either side of
  such a character is that of each side alone. So lower case goes into the
  pieces between commas (`Text.splitOn_lowerAfter`) and between blanks at the
  ends (`Text.trimChars_lowerAfter`).
* `Literal.items?_eq_some_iff` says which texts are lists, and
  `Literal.IsList.lower` that they stay so in lower case.

`Operator.treatsLists` says which values `CONTAINS` finds then.
-/

set_option autoImplicit false

namespace EventRules

namespace Text

/-! ### Lower case beside a mark -/

/-- A character that gives a list its form is no letter, and ends the search
for one. -/
theorem meetsLetter_cons_mark {c : Char} (h : isListMark c) (cs : List Char) :
    meetsLetter (c :: cs) = false := by
  have hcodes : ∀ code ∈ listMarkCodes, inRanges ignorableRanges (Char.ofNat code) = false
      ∧ inRanges casedRanges (Char.ofNat code) = false := by
    decide +kernel
  have hmark := hcodes c.toNat (mem_listMarkCodes_of_isListMark h)
  rw [Char.ofNat_toNat] at hmark
  rw [meetsLetter, List.find?_cons_of_pos (by rw [hmark.1]; rfl)]
  exact hmark.2

theorem meetsLetter_append_mark {c : Char} (h : isListMark c) (cs ds : List Char) :
    meetsLetter (cs ++ c :: ds) = meetsLetter cs := by
  rw [meetsLetter_append, meetsLetter_cons_mark h]
  split
  · next hall => exact (meetsLetter_of_all hall).symm
  · rfl

/-- What comes before the mark does not matter to what comes after it. -/
theorem lowerAfter_mark {c : Char} (h : isListMark c) (before cs : List Char) :
    lowerAfter (c :: before) cs = lowerAfter [] cs := by
  rw [← lowerBetween_nil, ← lowerBetween_nil, lowerBetween_eq_iff]
  intro first rest _
  rw [lowerSigma, lowerSigma, meetsLetter_append_mark h, List.append_nil, List.append_nil]

/-- Nor does what comes after the mark to what comes before it. -/
theorem lowerBetween_mark {c : Char} (h : isListMark c) (before cs ds : List Char) :
    lowerBetween before cs (c :: ds) = lowerAfter before cs := by
  rw [← lowerBetween_nil, lowerBetween_eq_iff]
  intro first rest _
  rw [lowerSigma, lowerSigma, meetsLetter_append_mark h, List.append_nil]

theorem lowerAfter_append_mark {c : Char} (h : isListMark c) (before cs ds : List Char) :
    lowerAfter before (cs ++ c :: ds) = lowerAfter before cs ++ c :: lowerAfter [] ds := by
  rw [lowerAfter_append, lowerBetween_mark h, lowerAfter_cons, lowerIn_of_isListMark h,
    lowerAfter_mark h]
  rfl

/-- Marks in front of a text stay as they are. -/
theorem lowerAfter_marks_append {marks : List Char} (h : ∀ c ∈ marks, isListMark c)
    (cs : List Char) : lowerAfter [] (marks ++ cs) = marks ++ lowerAfter [] cs := by
  induction marks with
  | nil => rfl
  | cons c marks ih =>
    rw [List.forall_mem_cons] at h
    have hmark := lowerAfter_append_mark h.1 [] [] (marks ++ cs)
    rw [ih h.2] at hmark
    exact hmark

/-- So do marks at its end. -/
theorem lowerAfter_append_marks {marks : List Char} (h : ∀ c ∈ marks, isListMark c)
    (before cs : List Char) : lowerAfter before (cs ++ marks) = lowerAfter before cs ++ marks := by
  cases marks with
  | nil => rw [List.append_nil, List.append_nil]
  | cons c marks =>
    rw [List.forall_mem_cons] at h
    have hmarks := lowerAfter_marks_append h.2 []
    rw [lowerAfter, List.append_nil] at hmarks
    rw [lowerAfter_append_mark h.1, hmarks]

/-- A mark is in a text in lower case if it is in the text. -/
theorem mem_lowerAfter_iff {c : Char} (h : isListMark c) {before cs : List Char} :
    c ∈ lowerAfter before cs ↔ c ∈ cs := by
  induction cs generalizing before with
  | nil => rfl
  | cons d cs ih =>
    rw [lowerAfter_cons, List.mem_append, List.mem_cons, ih]
    refine or_congr_left ?_
    cases hd : isListMark d with
    | true => rw [lowerIn_of_isListMark hd, List.mem_singleton]
    | false =>
      have hne : c ≠ d := by
        rintro rfl
        rw [h] at hd
        cases hd
      refine iff_of_false (fun hmem => ?_) hne
      rw [isListMark_of_mem_lowerIn hd hmem] at h
      cases h

theorem lowerAfter_eq_nil_iff {before cs : List Char} : lowerAfter before cs = [] ↔ cs = [] := by
  cases cs with
  | nil => exact iff_of_true rfl rfl
  | cons c cs =>
    rw [lowerAfter_cons, List.append_eq_nil_iff]
    exact iff_of_false (fun h => lowerIn_ne_nil _ _ c h.1) (List.cons_ne_nil _ _)

/-- The pieces of a text between marks, each in lower case, are those of the
text in lower case. -/
theorem splitOn_lowerAfter {c : Char} (h : isListMark c) (cs : List Char) :
    (lowerAfter [] cs).splitOn c = (cs.splitOn c).map (lowerAfter []) := by
  induction hlength : cs.length using Nat.strongRecOn generalizing cs with
  | ind length ih =>
    by_cases hmem : c ∈ cs
    · obtain ⟨first, rest, rfl⟩ := List.append_of_mem hmem
      rw [List.length_append, List.length_cons] at hlength
      rw [lowerAfter_append_mark h, List.splitOn_append_cons_self, List.splitOn_append_cons_self,
        ih _ (by omega) first rfl, ih _ (by omega) rest rfl, List.map_append]
    · have hlower : c ∉ lowerAfter [] cs := fun hlower => hmem ((mem_lowerAfter_iff h).1 hlower)
      rw [List.splitOn_eq_singleton hmem, List.splitOn_eq_singleton hlower]
      rfl

/-! ### Blanks at the ends -/

/-- The text neither begins nor ends with a blank. -/
structure Trimmed (cs : List Char) : Prop where
  head : ∀ c ∈ cs.head?, isBlank c = false
  last : ∀ c ∈ cs.getLast?, isBlank c = false

theorem isListMark_of_isBlank {c : Char} (h : isBlank c) : isListMark c := by
  simp [isListMark, h]

theorem dropWhile_blanks_append {blanks cs : List Char} (hblanks : ∀ c ∈ blanks, isBlank c)
    (hcs : ∀ c ∈ cs.head?, isBlank c = false) : (blanks ++ cs).dropWhile isBlank = cs := by
  rw [List.dropWhile_append_of_pos hblanks]
  cases cs with
  | nil => rfl
  | cons c cs => exact List.dropWhile_cons_of_neg (Bool.eq_false_iff.1 (hcs c rfl))

/-- Blanks at the ends are left out, and nothing else. -/
theorem trimChars_append {before cs after : List Char} (hbefore : ∀ c ∈ before, isBlank c)
    (hcs : Trimmed cs) (hafter : ∀ c ∈ after, isBlank c) :
    trimChars (before ++ (cs ++ after)) = cs := by
  by_cases hnil : cs = []
  · have hblank : ∀ c ∈ before ++ (cs ++ after), isBlank c := by
      rw [hnil, List.nil_append, List.forall_mem_append]
      exact ⟨hbefore, hafter⟩
    rw [trimChars, List.dropWhile_eq_nil_iff.2 hblank, hnil]
    rfl
  · have hhead : ∀ c ∈ (cs ++ after).head?, isBlank c = false := by
      rw [List.head?_append_of_ne_nil _ hnil]
      exact hcs.head
    have hlast : ∀ c ∈ cs.reverse.head?, isBlank c = false := by
      rw [List.head?_reverse]
      exact hcs.last
    have hreverse : ∀ c ∈ after.reverse, isBlank c := fun c hc => hafter c (List.mem_reverse.1 hc)
    rw [trimChars, dropWhile_blanks_append hbefore hhead, List.reverse_append,
      dropWhile_blanks_append hreverse hlast, List.reverse_reverse]

/-- What has no blanks at its ends is not trimmed. -/
theorem Trimmed.trimChars_eq {cs : List Char} (h : Trimmed cs) : trimChars cs = cs := by
  have htrim := trimChars_append (List.forall_mem_nil _) h (List.forall_mem_nil _)
  rwa [List.nil_append, List.append_nil] at htrim

theorem exists_trimChars (cs : List Char) :
    ∃ before after, cs = before ++ (trimChars cs ++ after) ∧ (∀ c ∈ before, isBlank c)
      ∧ (∀ c ∈ after, isBlank c) ∧ Trimmed (trimChars cs) := by
  have hhead : ∀ ds : List Char, ∀ c ∈ (ds.dropWhile isBlank).head?, isBlank c = false := by
    intro ds c hc
    have hnot := List.head?_dropWhile_not isBlank ds
    rw [Option.mem_def.1 hc] at hnot
    exact hnot
  have hfront : cs.dropWhile isBlank
      = trimChars cs ++ ((cs.dropWhile isBlank).reverse.takeWhile isBlank).reverse := by
    rw [trimChars, ← List.reverse_append, List.takeWhile_append_dropWhile, List.reverse_reverse]
  refine ⟨cs.takeWhile isBlank, ((cs.dropWhile isBlank).reverse.takeWhile isBlank).reverse, ?_,
    fun c hc => List.mem_takeWhile_imp hc,
    fun c hc => List.mem_takeWhile_imp (List.mem_reverse.1 hc), ?_, ?_⟩
  · rw [← hfront, List.takeWhile_append_dropWhile]
  · -- What is left has the first character that is no blank in front.
    intro c hc
    refine hhead cs c ?_
    rw [hfront, List.head?_append, Option.mem_def.1 hc]
    rfl
  · intro c hc
    rw [trimChars, List.getLast?_reverse] at hc
    exact hhead _ c hc

theorem isBlank_of_mem_lowerIn {before after : List Char} {c d : Char} (h : isBlank c = false)
    (hd : d ∈ lowerIn before after c) : isBlank d = false := by
  cases hc : isListMark c with
  | true =>
    rw [lowerIn_of_isListMark hc, List.mem_singleton] at hd
    exact hd ▸ h
  | false =>
    rw [Bool.eq_false_iff]
    intro hblank
    have hmark := isListMark_of_mem_lowerIn hc hd
    rw [isListMark_of_isBlank hblank] at hmark
    cases hmark

/-- A text without blanks at its ends has none there in lower case. -/
theorem Trimmed.lowerAfter {cs : List Char} (h : Trimmed cs) (before : List Char) :
    Trimmed (lowerAfter before cs) := by
  constructor
  · intro d hd
    cases cs with
    | nil => cases hd
    | cons c cs =>
      rw [lowerAfter_cons, List.head?_append_of_ne_nil _ (lowerIn_ne_nil _ _ c)] at hd
      exact isBlank_of_mem_lowerIn (h.head c rfl) (List.mem_of_mem_head? hd)
  · intro d hd
    rcases List.eq_nil_or_concat' cs with rfl | ⟨first, c, rfl⟩
    · cases hd
    · rw [lowerAfter_append, lowerAfter_cons, Text.lowerAfter, List.append_nil,
        List.getLast?_append_of_ne_nil _ (lowerIn_ne_nil _ _ c)] at hd
      have hc : isBlank c = false := h.last c (by rw [List.getLast?_concat]; rfl)
      exact isBlank_of_mem_lowerIn hc (List.mem_of_mem_getLast? hd)

/-- Blanks at the ends may be left out before or after. -/
theorem trimChars_lowerAfter (cs : List Char) :
    trimChars (lowerAfter [] cs) = lowerAfter [] (trimChars cs) := by
  obtain ⟨before, after, hcs, hbefore, hafter, htrimmed⟩ := exists_trimChars cs
  have hlower : lowerAfter [] cs = before ++ (lowerAfter [] (trimChars cs) ++ after) := by
    rw [← lowerAfter_append_marks fun c hc => isListMark_of_isBlank (hafter c hc),
      ← lowerAfter_marks_append fun c hc => isListMark_of_isBlank (hbefore c hc), ← hcs]
  rw [hlower, trimChars_append hbefore (htrimmed.lowerAfter []) hafter]

end Text

open Text

namespace Literal

/-! ### Lists -/

/-- The text, blanks at its ends aside, has the characters between brackets,
and they are pieces with commas between them. No piece is empty, and none has
a closing bracket. -/
structure IsList (text : String) (body : List Char) : Prop where
  bracketed : trimChars text.toList = '[' :: (body ++ [']'])
  closed : ']' ∉ body
  pieces : ∀ piece ∈ body.splitOn ',', piece ≠ []

/-- The items among the pieces: what a piece has between blanks, if it has
anything. -/
def itemsOf (body : List Char) : List String :=
  (((body.splitOn ',').map trimChars).filter (!·.isEmpty)).map String.ofList

theorem bracketed?_eq_some_iff {text : String} {body : List Char} :
    bracketed? text = some body
      ↔ trimChars text.toList = '[' :: (body ++ [']']) ∧ ']' ∉ body := by
  rw [bracketed?, Option.bind_eq_bind, Option.bind_eq_some_iff]
  simp only [after?_eq_some_iff]
  constructor
  · rintro ⟨rest, htext, hbody⟩
    split at hbody
    · next first last hspan =>
      cases hbody
      rw [List.span_eq_takeWhile_dropWhile, Prod.mk.injEq] at hspan
      obtain ⟨hfirst, hlast⟩ := hspan
      have hclose := List.head?_dropWhile_not (fun c : Char => decide (c ≠ ']')) rest
      rw [hlast] at hclose
      have hbracket : last = ']' := by simpa using hclose
      have hbody : ']' ∉ body := by
        rw [← hfirst]
        intro hmem
        have hne := List.mem_takeWhile_imp hmem
        simp at hne
      rw [htext, ← List.takeWhile_append_dropWhile (p := fun c => decide (c ≠ ']')) (l := rest),
        hfirst, hlast, hbracket]
      exact ⟨rfl, hbody⟩
    · cases hbody
  · rintro ⟨htext, hbody⟩
    have hpass : ∀ c ∈ body, decide (c ≠ ']') = true := by
      intro c hc
      rw [decide_eq_true_eq]
      rintro rfl
      exact hbody hc
    refine ⟨_, htext, ?_⟩
    rw [List.span_eq_takeWhile_dropWhile, List.takeWhile_append_of_pos hpass,
      List.dropWhile_append_of_pos hpass]
    simp

/-- A text is read as a list exactly if it is one. -/
theorem items?_eq_some_iff {text : String} {items : List String} :
    items? text = some items ↔ ∃ body, IsList text body ∧ items = itemsOf body := by
  have hempty : ∀ pieces : List (List Char),
      pieces.any (·.isEmpty) = false ↔ ∀ piece ∈ pieces, piece ≠ [] := by
    intro pieces
    rw [List.any_eq_false]
    simp
  rw [items?, Option.bind_eq_bind, Option.bind_eq_some_iff]
  simp only [bracketed?_eq_some_iff]
  constructor
  · rintro ⟨body, ⟨htext, hclosed⟩, hitems⟩
    split at hitems
    · cases hitems
    · next hpieces =>
      cases hitems
      exact ⟨body, ⟨htext, hclosed, (hempty _).1 (Bool.eq_false_iff.2 hpieces)⟩, rfl⟩
  · rintro ⟨body, ⟨htext, hclosed, hpieces⟩, rfl⟩
    refine ⟨body, ⟨htext, hclosed⟩, ?_⟩
    have hnone : (body.splitOnP (· = ',')).any (·.isEmpty) = false := (hempty _).2 hpieces
    rw [if_neg (Bool.eq_false_iff.1 hnone)]
    rfl

/-- A list is one in lower case. -/
theorem IsList.lower {text : String} {body : List Char} (h : IsList text body) :
    IsList (Text.lower text) (lowerAfter [] body) := by
  refine ⟨?_, ?_, ?_⟩
  · have hopen := lowerAfter_append_mark (c := '[') rfl [] [] (body ++ [']'])
    rw [lowerAfter_append_mark (c := ']') rfl] at hopen
    rw [toList_lower, trimChars_lowerAfter, h.bracketed]
    exact hopen
  · rw [mem_lowerAfter_iff (by rfl)]
    exact h.closed
  · intro piece hpiece
    rw [splitOn_lowerAfter (by rfl)] at hpiece
    obtain ⟨piece, hmem, rfl⟩ := List.mem_map.1 hpiece
    rw [Ne, lowerAfter_eq_nil_iff]
    exact h.pieces piece hmem

/-- Its items are those of the list, each in lower case. -/
theorem itemsOf_lowerAfter (body : List Char) :
    itemsOf (lowerAfter [] body) = (itemsOf body).map Text.lower := by
  have hempty : ∀ cs : List Char, (lowerAfter [] cs).isEmpty = cs.isEmpty := by
    intro cs
    rw [Bool.eq_iff_iff, List.isEmpty_iff, List.isEmpty_iff, lowerAfter_eq_nil_iff]
  have hlower : ∀ cs : List Char,
      String.ofList (lowerAfter [] cs) = Text.lower (String.ofList cs) := by
    intro cs
    rw [Text.lower, String.toList_ofList]
  rw [itemsOf, itemsOf, splitOn_lowerAfter (by rfl)]
  simp only [List.map_map, List.filter_map, Function.comp_def, trimChars_lowerAfter, hempty, hlower]

end Literal

/-! ### Values -/

/-- An item of the list is the value in another case: an element of a set, or
the text of any other value. -/
def Value.IsListed (items : List String) : Value → Prop
  | .set elements => ∃ element ∈ elements, ∃ item ∈ items, lower element = lower item
  | value => ∃ item ∈ items, lower value.text = lower item

/-- Of a set the options are compared with the elements. -/
theorem Needle.isIn_anyOf_set {options elements : StringSet} :
    (Needle.anyOf options).isIn (.set elements)
      ↔ ∃ element ∈ elements, lower element ∈ options := by
  simp only [isIn, isAmong, List.any_eq_true, decide_eq_true_eq]
  constructor
  · rintro ⟨option, hoption, element, helement, rfl⟩
    exact ⟨element, helement, hoption⟩
  · rintro ⟨element, helement, hoption⟩
    exact ⟨_, hoption, element, helement, rfl⟩

namespace Operator

/-- The needle of a list is its items in lower case. -/
theorem read_contains_of_isList {text : String} {body : List Char}
    (h : Literal.IsList text body) :
    contains.read text
      = .ok (.contains (.anyOf (.ofList ((Literal.itemsOf body).map lower)))) := by
  rw [read, Needle.ofText,
    Literal.items?_eq_some_iff.2 ⟨_, h.lower, (Literal.itemsOf_lowerAfter body).symm⟩]

/-- Any other text is one needle. -/
theorem read_contains_of_not_isList {text : String} (h : ¬ ∃ body, Literal.IsList text body) :
    contains.read text = .ok (.contains (.text (lower text))) := by
  have hnone : Literal.items? text = none := by
    rw [Option.eq_none_iff_forall_ne_some]
    intro items hitems
    obtain ⟨body, hlist, -⟩ := Literal.items?_eq_some_iff.1 hitems
    exact h ⟨body, hlist⟩
  rw [read, Needle.ofText, (Literal.items?_lower_eq_none_iff text).2 hnone]

/-- What `CONTAINS` makes of a text. -/
structure TreatsLists (text : String) : Prop where
  /-- It looks for one of several texts exactly if the text is a list. -/
  list_iff : (∃ options, contains.read text = .ok (.contains (.anyOf options)))
    ↔ ∃ body, Literal.IsList text body
  /-- Otherwise it looks for the text in lower case. -/
  single : (¬ ∃ body, Literal.IsList text body) →
    contains.read text = .ok (.contains (.text (lower text)))
  /-- It finds the values that are items of the list, in any case. -/
  finds : ∀ body, Literal.IsList text body → ∃ comparator, contains.read text = .ok comparator
    ∧ ∀ value, comparator.compare value ↔ value.IsListed (Literal.itemsOf body)
  /-- It finds none in a list without items. -/
  finds_none : ∀ body, Literal.IsList text body → Literal.itemsOf body = [] →
    ∃ comparator, contains.read text = .ok comparator ∧ ∀ value, comparator.compare value = false
  /-- Lists with the same items are the same, in whatever order, however often
  and with whatever blanks the items are written. -/
  same : ∀ body other otherBody, Literal.IsList text body → Literal.IsList other otherBody →
    (∀ item, item ∈ Literal.itemsOf body ↔ item ∈ Literal.itemsOf otherBody) →
    contains.read other = contains.read text

theorem compare_anyOf_iff (items : List String) (value : Value) :
    (Comparator.contains (.anyOf (.ofList (items.map lower)))).compare value
      ↔ value.IsListed items := by
  have hmem : ∀ text, lower text ∈ StringSet.ofList (items.map lower)
      ↔ ∃ item ∈ items, lower text = lower item := by
    intro text
    rw [StringSet.mem_ofList, List.mem_map]
    simp only [eq_comm]
  rw [Comparator.compare]
  cases value with
  | set elements => simp only [Needle.isIn_anyOf_set, Value.IsListed, hmem]
  | _ => exact decide_eq_true_iff.trans (hmem _)

/-- `CONTAINS` takes the items of a list, and any other text as a whole. -/
theorem treatsLists (text : String) : TreatsLists text where
  list_iff := by
    constructor
    · rintro ⟨options, hread⟩
      by_contra hnone
      rw [read_contains_of_not_isList hnone] at hread
      cases hread
    · rintro ⟨body, hlist⟩
      exact ⟨_, read_contains_of_isList hlist⟩
  single := read_contains_of_not_isList
  finds body hlist := ⟨_, read_contains_of_isList hlist, compare_anyOf_iff _⟩
  finds_none := by
    intro body hlist hnil
    refine ⟨_, read_contains_of_isList hlist, fun value => ?_⟩
    rw [Bool.eq_false_iff, Ne, compare_anyOf_iff, hnil]
    cases value <;> simp [Value.IsListed]
  same := by
    intro body other otherBody hlist hother hitems
    have hset : StringSet.ofList ((Literal.itemsOf otherBody).map lower)
        = StringSet.ofList ((Literal.itemsOf body).map lower) := by
      refine StringSet.eq_of_mem_iff fun text => ?_
      simp only [StringSet.mem_ofList, List.mem_map, hitems]
    rw [read_contains_of_isList hlist, read_contains_of_isList hother, hset]

/-- A sigma at the end of an item is final before a comma, and a comma without
an item after it makes no list. -/
theorem treatsLists_sigma :
    (∃ comparator, contains.read " [\tΟΔΟΣ,vip, ]" = .ok comparator
        ∧ comparator.compare (.string "ΟδοΣ"))
      ∧ contains.read "[VIP,]" = .ok (.contains (.text "[vip,]")) := by
  constructor
  · have hlist : Literal.IsList " [\tΟΔΟΣ,vip, ]" "\tΟΔΟΣ,vip, ".toList :=
      ⟨by decide +kernel, by decide +kernel, by decide +kernel⟩
    obtain ⟨comparator, hread, hfinds⟩ := (treatsLists _).finds _ hlist
    refine ⟨comparator, hread, (hfinds _).2 ⟨"ΟΔΟΣ", ?_, ?_⟩⟩
    · decide +kernel
    · decide +kernel
  · refine (treatsLists "[VIP,]").single ?_
    rintro ⟨body, hlist⟩
    have hitems := Literal.items?_eq_some_iff.2 ⟨body, hlist, rfl⟩
    have hnone : Literal.items? "[VIP,]" = none := by decide +kernel
    rw [hnone] at hitems
    cases hitems

end Operator

end EventRules

import EventRules.Proofs.Condition.ListItems
import EventRules.Proofs.Script.Spacing

/-!
# `EventRules.Proofs.Condition.Pieces`: pieces between commas

The bounds of a range and the items of a list are written between commas, and
gaps may stand around each. `Separated pieces cs` says that of a text.

* `Separated.spellsRange` and `Separated.isList`: between brackets such a text
  is a range or a list, and the gaps do not matter to what it denotes.
* `Separated.respaced`: the text is still the pieces with commas between them
  when it has been read as words and the words have been joined.

A piece is an `IsItem`. It may be several words, but only one space apart: a
wider gap inside a piece would not come out as it went in, unlike those around
it.
-/

set_option autoImplicit false

namespace EventRules

open Text

namespace Text

/-! ### Items -/

/-- The character may stand in an item: it is no blank, no bracket and no comma,
and opens no span and no comment. -/
def isItemChar (c : Char) : Bool :=
  !isListMark c && c ≠ '%' && c ≠ '#'

/-- The text is words with one space between any two. There is a word, and none
is empty. -/
inductive IsItem : String → Prop
  | mk {words : List String} (hne : words ≠ [])
      (hwords : ∀ word ∈ words, word ≠ "" ∧ ∀ c ∈ word.toList, isItemChar c) :
      IsItem (" ".intercalate words)

theorem isItemChar_iff {c : Char} :
    isItemChar c ↔ isListMark c = false ∧ c ≠ '%' ∧ c ≠ '#' := by
  simp [isItemChar, and_assoc]

/-- Such a character is no blank. -/
theorem isBlank_of_isItemChar {c : Char} (h : isItemChar c) : isBlank c = false := by
  rw [Bool.eq_false_iff]
  intro hblank
  have hmark := (isItemChar_iff.1 h).1
  rw [isListMark_of_isBlank hblank] at hmark
  cases hmark

/-- Nor does it mean anything to the scanner. -/
theorem isPlain_of_isItemChar {c : Char} (h : isItemChar c) : isPlain c := by
  have hblank : ¬ isBlank c := Bool.eq_false_iff.1 (isBlank_of_isItemChar h)
  refine isPlain_iff.2 ⟨?_, ?_, (isItemChar_iff.1 h).2.1⟩
  · exact fun hindent => hblank (isBlank_of_isIndent hindent)
  · exact fun hbreak => hblank (isBlank_of_isBreak hbreak)

/-- A blank at an end of two texts one after the other is one of the first or of
the second. -/
theorem Trimmed.append {cs ds : List Char} (hcs : Trimmed cs) (hds : Trimmed ds) (hne : cs ≠ [])
    (hne' : ds ≠ []) (between : List Char) : Trimmed (cs ++ (between ++ ds)) := by
  constructor
  · intro c hc
    rw [List.head?_append_of_ne_nil _ hne] at hc
    exact hcs.head c hc
  · intro c hc
    rw [← List.append_assoc, List.getLast?_append_of_ne_nil _ hne'] at hc
    exact hds.last c hc

/-- A text without blanks has none at its ends. -/
theorem Trimmed.of_forall {cs : List Char} (h : ∀ c ∈ cs, isBlank c = false) : Trimmed cs :=
  ⟨fun c hc => h c (List.mem_of_mem_head? hc), fun c hc => h c (List.mem_of_mem_getLast? hc)⟩

/-- A text in brackets has no blanks at its ends. -/
theorem trimChars_bracketed (cs : List Char) :
    trimChars ('[' :: (cs ++ [']'])) = '[' :: (cs ++ [']']) := by
  have htrimmed : Trimmed ('[' :: (cs ++ [']'])) := by
    constructor
    · intro c hc
      cases hc
      decide
    · intro c hc
      rw [← List.cons_append, List.getLast?_concat] at hc
      cases hc
      decide
  exact htrimmed.trimChars_eq

/-- What an item is made of. -/
structure IsItem.Shape (cs : List Char) : Prop where
  ne_nil : cs ≠ []
  trimmed : Trimmed cs
  respaced : Respaced cs cs
  chars : ∀ c ∈ cs, c = ' ' ∨ isItemChar c

/-- By induction on the words of the item. -/
theorem IsItem.shape {item : String} (h : IsItem item) : IsItem.Shape item.toList := by
  obtain ⟨hne, hwords⟩ := h
  rename_i words
  induction words with
  | nil => exact absurd rfl hne
  | cons word words ih =>
    rw [List.forall_mem_cons] at hwords
    obtain ⟨⟨hword, hchars⟩, hrest⟩ := hwords
    have hcs : word.toList ≠ [] := fun hnil => hword (String.toList_eq_nil_iff.1 hnil)
    have htrimmed : Trimmed word.toList :=
      .of_forall fun c hc => isBlank_of_isItemChar (hchars c hc)
    have hsolid : IsSolid word.toList :=
      ⟨hcs, fun c hc => (isPlain_iff.1 (isPlain_of_isItemChar (hchars c hc))).1⟩
    -- The words after this one, if any, are an item of their own.
    by_cases hnil : words = []
    · rw [hnil, String.intercalate_singleton]
      exact ⟨hcs, htrimmed, .solid hsolid, fun c hc => .inr (hchars c hc)⟩
    · obtain ⟨hne', htrimmed', hrespaced, hchars'⟩ := ih hnil hrest
      have htext : (" ".intercalate (word :: words)).toList
          = word.toList ++ ([' '] ++ (" ".intercalate words).toList) := by
        rw [String.intercalate_cons_of_ne_nil hnil, String.toList_append, String.toList_append,
          List.append_assoc]
        rfl
      rw [htext]
      refine ⟨List.append_ne_nil_of_left_ne_nil hcs _, htrimmed.append htrimmed' hcs hne' [' '],
        .append hsolid .space hrespaced, ?_⟩
      rw [List.forall_mem_append, List.forall_mem_append, List.forall_mem_singleton]
      exact ⟨fun c hc => .inr (hchars c hc), .inl rfl, hchars'⟩

/-- A character that gives a list its form stands in no item, the space aside. -/
theorem IsItem.not_mem {item : String} (h : IsItem item) {c : Char} (hspace : c ≠ ' ')
    (hc : isItemChar c = false) : c ∉ item.toList := by
  intro hmem
  rcases h.shape.chars c hmem with hsame | hitem
  · exact hspace hsame
  · rw [hc] at hitem
    cases hitem

/-- An item with gaps around it is what stands between two commas, and trimmed
it is the item. -/
theorem IsItem.padded {item : String} (h : IsItem item) {before after : List Char}
    (hbefore : IsGap before) (hafter : IsGap after) :
    ',' ∉ before ++ (item.toList ++ after) ∧ before ++ (item.toList ++ after) ≠ []
      ∧ trimChars (before ++ (item.toList ++ after)) = item.toList := by
  have hgap : ∀ {gap : List Char}, IsGap gap → ',' ∉ gap := by
    intro gap hgap hcomma
    cases hgap ',' hcomma
  refine ⟨?_, ?_, ?_⟩
  · simp only [List.mem_append, not_or]
    exact ⟨hgap hbefore, h.not_mem (by decide) rfl, hgap hafter⟩
  · exact List.append_ne_nil_of_right_ne_nil _
      (List.append_ne_nil_of_left_ne_nil h.shape.ne_nil _)
  · exact trimChars_append (fun c hc => isBlank_of_isIndent (hbefore c hc)) h.shape.trimmed
      fun c hc => isBlank_of_isIndent (hafter c hc)

/-! ### Pieces -/

/-- The text is the pieces with commas between them and gaps around each. -/
inductive Separated : List String → List Char → Prop
  | single {piece : String} {before after : List Char} (hbefore : IsGap before)
      (hafter : IsGap after) : Separated [piece] (before ++ (piece.toList ++ after))
  | cons {piece : String} {pieces : List String} {before after cs : List Char}
      (hbefore : IsGap before) (hafter : IsGap after) (hrest : Separated pieces cs) :
      Separated (piece :: pieces) (before ++ (piece.toList ++ (after ++ ',' :: cs)))

namespace Separated

variable {pieces : List String} {cs : List Char}

/-- Pieces may stand without gaps. -/
theorem intercalate {pieces : List String} (hne : pieces ≠ []) :
    Separated pieces (",".intercalate pieces).toList := by
  induction pieces with
  | nil => exact absurd rfl hne
  | cons piece pieces ih =>
    cases pieces with
    | nil =>
      have hsingle := @single piece [] [] .nil .nil
      rwa [List.nil_append, List.append_nil] at hsingle
    | cons next pieces =>
      have hcons := @cons piece _ [] [] _ .nil .nil (ih (List.cons_ne_nil _ _))
      rw [String.intercalate_cons_cons, String.toList_append, String.toList_append,
        List.append_assoc]
      exact hcons

/-- The text has no other characters than the pieces, gaps and commas. -/
theorem forall_mem (h : Separated pieces cs) {p : Char → Prop} (hindent : ∀ c, isIndent c → p c)
    (hcomma : p ',') (hpieces : ∀ piece ∈ pieces, ∀ c ∈ piece.toList, p c) : ∀ c ∈ cs, p c := by
  induction h with
  | single hbefore hafter =>
    simp only [List.forall_mem_append]
    exact ⟨fun c hc => hindent c (hbefore c hc), List.forall_mem_singleton.1 hpieces,
      fun c hc => hindent c (hafter c hc)⟩
  | cons hbefore hafter _ ih =>
    rw [List.forall_mem_cons] at hpieces
    simp only [List.forall_mem_append, List.forall_mem_cons]
    exact ⟨fun c hc => hindent c (hbefore c hc), hpieces.1, fun c hc => hindent c (hafter c hc),
      hcomma, ih hpieces.2⟩

/-- No character of the text means anything to the scanner but the spaces and
tabs. -/
theorem isPlain_of_mem (h : Separated pieces cs) (hpieces : ∀ piece ∈ pieces, IsItem piece) :
    ∀ c ∈ cs, (isIndent c ∨ isPlain c) ∧ c ≠ '#' := by
  refine h.forall_mem ?_ (by decide) ?_
  · intro c hc
    refine ⟨.inl hc, ?_⟩
    rintro rfl
    cases hc
  · intro piece hpiece c hc
    rcases (hpieces piece hpiece).shape.chars c hc with rfl | hitem
    · exact ⟨.inl rfl, by decide⟩
    · exact ⟨.inr (isPlain_of_isItemChar hitem), (isItemChar_iff.1 hitem).2.2⟩

/-- The text in brackets falls into words that are, one space apart, a text of
the same pieces in brackets. The bracket or comma before the text is any
character that is no space and no tab. -/
theorem respaced (h : Separated pieces cs) (hpieces : ∀ piece ∈ pieces, IsItem piece)
    {first : Char} (hfirst : ¬ isIndent first) :
    ∃ ds, Separated pieces ds ∧ Respaced (first :: (cs ++ [']'])) (first :: (ds ++ [']'])) := by
  induction h generalizing first with
  | @single piece before after hbefore hafter =>
    have hitem := (List.forall_mem_singleton.1 hpieces).shape.respaced
    refine ⟨_, .single (isGap_tightGap before) (isGap_tightGap after), ?_⟩
    have hlast : Respaced [']'] [']'] := .solid (.singleton (by decide))
    simp only [List.append_assoc]
    exact .append (.singleton hfirst) hbefore (hitem.append_respaced hafter hlast)
  | @cons piece pieces before after cs hbefore hafter _ ih =>
    rw [List.forall_mem_cons] at hpieces
    have hitem := hpieces.1.shape.respaced
    -- What comes after the comma is a text of the same kind, begun by it.
    obtain ⟨ds, hds, hrest⟩ := @ih hpieces.2 ',' (by decide)
    refine ⟨_, .cons (isGap_tightGap before) (isGap_tightGap after) hds, ?_⟩
    simp only [List.append_assoc]
    exact .append (.singleton hfirst) hbefore (hitem.append_respaced hafter hrest)

end Separated

end Text

/-! ### Literals -/

/-- A digit may stand in an item. -/
theorem isItemChar_of_isDigit {c : Char} (h : isDigit c) : isItemChar c := by
  have hall : ∀ code ∈ List.range' 48 10, isItemChar (Char.ofNat code) := by decide
  simp only [isDigit, Bool.and_eq_true, decide_eq_true_eq, Char.le_def,
    UInt32.le_iff_toNat_le] at h
  have hcode : 48 ≤ c.toNat ∧ c.toNat ≤ 57 := h
  have hitem := hall c.toNat (List.mem_range'_1.2 (by omega))
  rwa [Char.ofNat_toNat] at hitem

/-- A numeral is an item of one word. -/
theorem Numeral.Spells.isItem {numeral : Numeral} {text : String}
    (h : numeral.Spells text.toList) : IsItem text := by
  have hdigits : ∀ {ds : List Char}, IsDigits ds → ∀ c ∈ ds, isItemChar c :=
    fun hds c hc => isItemChar_of_isDigit (hds.isDigit c hc)
  have hchars : ∀ c ∈ text.toList, isItemChar c := by
    generalize text.toList = cs at h
    obtain ⟨hsign, hwhole, hfraction⟩ := h
    obtain ⟨negative, whole, ds⟩ := numeral
    simp only [List.forall_mem_append]
    refine ⟨⟨?_, hdigits hwhole⟩, ?_⟩
    · cases hsign with
      | none => exact List.forall_mem_nil _
      | plus => exact List.forall_mem_singleton.2 rfl
      | minus => exact List.forall_mem_singleton.2 rfl
    · cases hfraction with
      | none => exact List.forall_mem_nil _
      | digits hds => exact List.forall_mem_cons.2 ⟨rfl, hdigits hds⟩
  have hne : text ≠ "" := by
    rintro rfl
    obtain ⟨c, rest, hnil, -⟩ := h.exists_cons
    cases hnil
  have hitem := @IsItem.mk [text] (List.cons_ne_nil _ _) (List.forall_mem_singleton.2 ⟨hne, hchars⟩)
  rwa [String.intercalate_singleton] at hitem

/-- Spaces and tabs may stand around the bounds of a range. -/
theorem Literal.isPadding_of_isGap {gap : List Char} (h : IsGap gap) : ∀ c ∈ gap, isPadding c := by
  intro c hc
  rw [isPadding, h c hc, Bool.true_or]

namespace Text.Separated

variable {pieces : List String} {cs : List Char}

/-- Two numerals are a range. -/
theorem spellsRange {lo hi : Numeral} {low high : String} (h : Separated [low, high] cs)
    (hlow : lo.Spells low.toList) (hhigh : hi.Spells high.toList) :
    Literal.SpellsRange lo hi ('[' :: (cs ++ [']'])) := by
  cases h with
  | cons hbefore hafter hrest =>
    cases hrest with
    | single hbefore' hafter' =>
      simp only [List.append_assoc, List.cons_append]
      exact .mk hlow hhigh (Literal.isPadding_of_isGap hbefore) (Literal.isPadding_of_isGap hafter)
        (Literal.isPadding_of_isGap hbefore') (Literal.isPadding_of_isGap hafter')
    | cons _ _ hrest => cases hrest

/-- The commas are those between the pieces. -/
theorem splitOn_eq (h : Separated pieces cs) (hpieces : ∀ piece ∈ pieces, IsItem piece) :
    (∀ cut ∈ cs.splitOn ',', cut ≠ [])
      ∧ (cs.splitOn ',').map trimChars = pieces.map String.toList := by
  induction h with
  | single hbefore hafter =>
    obtain ⟨hcomma, hne, htrim⟩ := (List.forall_mem_singleton.1 hpieces).padded hbefore hafter
    rw [List.splitOn_eq_singleton hcomma, List.forall_mem_singleton]
    exact ⟨hne, congrArg ([·]) htrim⟩
  | @cons piece pieces before after cs hbefore hafter _ ih =>
    rw [List.forall_mem_cons] at hpieces
    obtain ⟨hcomma, hne, htrim⟩ := hpieces.1.padded hbefore hafter
    obtain ⟨hcuts, htrims⟩ := ih hpieces.2
    -- The first comma is the one after the piece.
    have htext : before ++ (piece.toList ++ (after ++ ',' :: cs))
        = before ++ (piece.toList ++ after) ++ ',' :: cs := by
      simp only [List.append_assoc]
    rw [htext, List.splitOn_append_cons_self, List.splitOn_eq_singleton hcomma,
      List.singleton_append, List.forall_mem_cons, List.map_cons, htrim, htrims]
    exact ⟨⟨hne, hcuts⟩, rfl⟩

/-- A character that is no gap, no comma and in no item is not in the text. -/
theorem not_mem (h : Separated pieces cs) (hpieces : ∀ piece ∈ pieces, IsItem piece) {c : Char}
    (hindent : ¬ isIndent c) (hcomma : c ≠ ',') (hc : isItemChar c = false) : c ∉ cs := by
  have hspace : c ≠ ' ' := by
    rintro rfl
    exact hindent rfl
  intro hmem
  refine h.forall_mem (p := (· ≠ c)) ?_ hcomma.symm ?_ c hmem rfl
  · rintro d hd rfl
    exact hindent hd
  · rintro piece hpiece d hd rfl
    exact (hpieces piece hpiece).not_mem hspace hc hd

/-- Items are a list. -/
theorem isList (h : Separated pieces cs) (hpieces : ∀ piece ∈ pieces, IsItem piece) {text : String}
    (htext : text.toList = '[' :: (cs ++ [']'])) : Literal.IsList text cs where
  bracketed := by rw [htext, trimChars_bracketed]
  closed := h.not_mem hpieces (by decide) (by decide) rfl
  pieces := (h.splitOn_eq hpieces).1

/-- The items of the list are the pieces. -/
theorem itemsOf_eq (h : Separated pieces cs) (hpieces : ∀ piece ∈ pieces, IsItem piece) :
    Literal.itemsOf cs = pieces := by
  have hne : ∀ piece ∈ pieces.map String.toList, (!piece.isEmpty) = true := by
    intro piece hpiece
    obtain ⟨item, hitem, rfl⟩ := List.mem_map.1 hpiece
    simpa using (hpieces item hitem).shape.ne_nil
  rw [Literal.itemsOf, (h.splitOn_eq hpieces).2, List.filter_eq_self.2 hne, List.map_map]
  simp only [Function.comp_def, String.ofList_toList, List.map_id']

end Text.Separated

end EventRules

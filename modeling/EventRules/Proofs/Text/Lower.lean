import EventRules.Proofs.Text.Upper

/-!
# `EventRules.Proofs.Text.Lower`: lower case in context

The lower case of a text is that of its characters one by one, but for the
capital sigma, which asks for the letters around it. So a text that stands
between others need not have the lower case there that it has alone.

* `lowerBetween` is the lower case of characters between others, and
  `lowerAfter_append` takes lower case apart with it.
* `lowerBetween_eq_iff`: other neighbours make a difference exactly if they
  make one to a sigma. `KeepsSigma` says that they make none.
* `lowerIn_of_isListMark` and `isListMark_of_mem_lowerIn`: the blanks, brackets
  and commas that give a list its form are left alone by lower case, and no
  letter becomes one of them.
* `lower_lower`: what the table maps to is not mapped again. So a text in lower
  case may be taken apart and put together in another way (`lower_of_isSmall`).
-/

set_option autoImplicit false

namespace EventRules.Text

/-! ### Characters between others -/

/-- The lower case of a character, with the characters before it, read
backwards, and after it. -/
def lowerIn (before after : List Char) (c : Char) : List Char :=
  if c = 'Σ' then [lowerSigma before after] else lowerChar c

/-- The lower case of characters, with the characters before them, read
backwards, and after them. -/
def lowerBetween (before : List Char) : List Char → List Char → List Char
  | [], _ => []
  | c :: cs, after => lowerIn before (cs ++ after) c ++ lowerBetween (c :: before) cs after

theorem lowerAfter_cons (before : List Char) (c : Char) (cs : List Char) :
    lowerAfter before (c :: cs) = lowerIn before cs c ++ lowerAfter (c :: before) cs := by
  rw [lowerIn]
  by_cases hsigma : c = 'Σ'
  · subst hsigma
    rw [if_pos rfl, lowerAfter]
    rfl
  · rw [if_neg hsigma, lowerAfter]
    exact hsigma

/-- Lower case of one text before another. -/
theorem lowerAfter_append (before cs ds : List Char) :
    lowerAfter before (cs ++ ds)
      = lowerBetween before cs ds ++ lowerAfter (cs.reverse ++ before) ds := by
  induction cs generalizing before with
  | nil => rfl
  | cons c cs ih =>
    rw [List.cons_append, lowerAfter_cons, ih, lowerBetween, List.append_assoc]
    simp

theorem lowerBetween_nil (before cs : List Char) :
    lowerBetween before cs [] = lowerAfter before cs := by
  have happend := lowerAfter_append before cs []
  rw [List.append_nil, lowerAfter, List.append_nil] at happend
  exact happend.symm

@[simp] theorem toList_lower (text : String) : (lower text).toList = lowerAfter [] text.toList :=
  String.toList_ofList

/-! ### Neighbours -/

/-- The neighbours of a character do not change how many it becomes. -/
theorem length_lowerIn (before after before' after' : List Char) (c : Char) :
    (lowerIn before after c).length = (lowerIn before' after' c).length := by
  rw [lowerIn, lowerIn]
  split <;> rfl

theorem length_lowerBetween (before after before' after' cs : List Char) :
    (lowerBetween before cs after).length = (lowerBetween before' cs after').length := by
  induction cs generalizing before before' with
  | nil => rfl
  | cons c cs ih =>
    rw [lowerBetween, lowerBetween, List.length_append, List.length_append,
      ih (c :: before) (c :: before'), length_lowerIn before _ before' (cs ++ after')]

/-- Lower case is the same between other characters if that of each sigma
is. -/
theorem lowerBetween_eq_iff {before after before' after' cs : List Char} :
    lowerBetween before cs after = lowerBetween before' cs after'
      ↔ ∀ first rest, cs = first ++ 'Σ' :: rest →
          lowerSigma (first.reverse ++ before) (rest ++ after)
            = lowerSigma (first.reverse ++ before') (rest ++ after') := by
  induction cs generalizing before before' with
  | nil => simp [lowerBetween]
  | cons c cs ih =>
    have hlength := length_lowerIn before (cs ++ after) before' (cs ++ after') c
    -- The first character is compared apart from the others.
    have hfirst : lowerIn before (cs ++ after) c = lowerIn before' (cs ++ after') c
        ↔ (c = 'Σ' → lowerSigma before (cs ++ after) = lowerSigma before' (cs ++ after')) := by
      rw [lowerIn, lowerIn]
      by_cases hsigma : c = 'Σ'
      · simp [hsigma]
      · simp [hsigma]
    rw [lowerBetween, lowerBetween]
    constructor
    · intro heq first rest hcs
      obtain ⟨hc, hothers⟩ := List.append_inj heq hlength
      cases first with
      | nil =>
        cases hcs
        exact hfirst.1 hc rfl
      | cons d first =>
        cases hcs
        have hrest := ih.1 hothers first rest rfl
        simpa using hrest
    · intro h
      have hc := hfirst.2 fun hsigma => h [] cs (by rw [hsigma]; rfl)
      have hothers := ih.2 fun first rest hcs => by
        have hrest := h (c :: first) rest (by rw [hcs]; rfl)
        simpa using hrest
      rw [hc, hothers]

/-- Each sigma of the text has the lower case between its neighbours that
it has in the text alone. -/
def KeepsSigma (before text after : List Char) : Prop :=
  ∀ first rest, text = first ++ 'Σ' :: rest →
    lowerSigma (first.reverse ++ before.reverse) (rest ++ after) = lowerSigma first.reverse rest

/-- The text has the same lower case between its neighbours as alone. -/
theorem keepsSigma_iff {before text after : List Char} :
    KeepsSigma before text after
      ↔ lowerBetween before.reverse text after = lowerAfter [] text := by
  have heq := @lowerBetween_eq_iff before.reverse after [] [] text
  simp only [List.append_nil] at heq
  rw [← lowerBetween_nil, heq, KeepsSigma]

instance (before text after : List Char) : Decidable (KeepsSigma before text after) :=
  decidable_of_iff _ keepsSigma_iff.symm

/-! ### The form of a list -/

/-- A blank, a bracket or a comma. -/
def isListMark (c : Char) : Bool :=
  isBlank c || c = '[' || c = ']' || c = ','

/-- The code points of these characters. -/
def listMarkCodes : List Nat :=
  List.range' 9 5 ++ [0x20, 0x2c, 0x5b, 0x5d, 0x85, 0xa0, 0x1680] ++ List.range' 0x2000 11
    ++ [0x2028, 0x2029, 0x202f, 0x205f, 0x3000]

/-- The code points beyond ASCII that have a lower case. -/
def lowerSources : List Nat :=
  lowerRuns.flatMap CaseRun.codes ++ lowerSequences.map (·.1)

/-- The code points in lower case. -/
def lowerTargets : List Nat :=
  lowerRuns.flatMap (fun run => run.codes.map fun code => (Int.ofNat code + run.shift).toNat)
    ++ lowerSequences.flatMap (·.2)

/-- The code points beyond ASCII that have a lower case, and those that
stand in one. -/
def lowerCodes : List Nat :=
  lowerSources ++ lowerTargets

theorem mem_listMarkCodes_of_isListMark {c : Char} (h : isListMark c) :
    c.toNat ∈ listMarkCodes := by
  have hmark : isBlank c ∨ c.toNat = 0x5b ∨ c.toNat = 0x5d ∨ c.toNat = 0x2c := by
    simp only [isListMark, Bool.or_eq_true, decide_eq_true_eq] at h
    rcases h with ((hblank | rfl) | rfl) | rfl
    · exact .inl hblank
    · exact .inr (.inl rfl)
    · exact .inr (.inr (.inl rfl))
    · exact .inr (.inr (.inr rfl))
  simp only [listMarkCodes, List.mem_append, List.mem_range'_1, List.mem_cons, List.not_mem_nil,
    or_false]
  simp only [isBlank, Bool.or_eq_true, Bool.and_eq_true, decide_eq_true_eq] at hmark
  omega

/-- The table neither maps such a character nor maps to one. -/
theorem codeSet_lower : codeSet lowerCodes &&& codeSet listMarkCodes = 0 := by
  decide +kernel

theorem isListMark_of_mem_lowerCodes {code : Nat} (h : code ∈ lowerCodes) :
    isListMark (Char.ofNat code) = false := by
  by_cases hvalid : code.isValidChar
  · rw [Bool.eq_false_iff]
    intro hmark
    have hmem := mem_listMarkCodes_of_isListMark hmark
    have hsame : (Char.ofNat code).toNat = code := by
      rw [Char.ofNat, dif_pos hvalid]
      rfl
    rw [hsame] at hmem
    exact not_mem_of_codeSet codeSet_lower hmem h
  · -- A number that is no code point stands for the first one.
    rw [Char.ofNat, dif_neg hvalid]
    rfl

theorem isListMark_toLower : ∀ code ∈ List.range 128,
    isListMark (Char.ofNat code).toLower = isListMark (Char.ofNat code)
      ∧ (isListMark (Char.ofNat code) → (Char.ofNat code).toLower = Char.ofNat code) := by
  decide +kernel

theorem lowerChar_of_isListMark {c : Char} (h : isListMark c) : lowerChar c = [c] := by
  rw [lowerChar]
  split
  · next hascii =>
    have hlower := (isListMark_toLower c.toNat (List.mem_range.2 hascii)).2
    rw [Char.ofNat_toNat] at hlower
    rw [hlower h]
  · refine mapCase_of_not_mem fun hmem => ?_
    have hnone := isListMark_of_mem_lowerCodes (List.mem_append_left _ hmem)
    rw [Char.ofNat_toNat, h] at hnone
    cases hnone

theorem isListMark_of_mem_lowerChar {c d : Char} (h : isListMark c = false) (hd : d ∈ lowerChar c) :
    isListMark d = false := by
  rw [lowerChar] at hd
  split at hd
  · next hascii =>
    have hlower := (isListMark_toLower c.toNat (List.mem_range.2 hascii)).1
    rw [Char.ofNat_toNat] at hlower
    rw [List.mem_singleton.1 hd, hlower, h]
  · rcases mem_mapCase hd with ⟨code, hcode, rfl⟩ | hsame
    · exact isListMark_of_mem_lowerCodes (List.mem_append_right _ hcode)
    · rw [hsame] at hd
      rw [List.mem_singleton.1 hd, h]

theorem lowerChar_ne_nil (c : Char) : lowerChar c ≠ [] := by
  have hsequences : ∀ entry ∈ lowerSequences, entry.2 ≠ [] := by
    decide
  rw [lowerChar]
  split
  · exact List.cons_ne_nil _ _
  · exact mapCase_ne_nil hsequences c

/-- What gives a list its form stays in lower case. -/
theorem lowerIn_of_isListMark {c : Char} (h : isListMark c) (before after : List Char) :
    lowerIn before after c = [c] := by
  have hsigma : c ≠ 'Σ' := by
    rintro rfl
    revert h
    decide
  rw [lowerIn, if_neg hsigma, lowerChar_of_isListMark h]

/-- No other character turns into what gives a list its form. -/
theorem isListMark_of_mem_lowerIn {before after : List Char} {c d : Char} (h : isListMark c = false)
    (hd : d ∈ lowerIn before after c) : isListMark d = false := by
  rw [lowerIn] at hd
  split at hd
  · obtain rfl := List.mem_singleton.1 hd
    rw [lowerSigma]
    split <;> rfl
  · exact isListMark_of_mem_lowerChar h hd

theorem lowerIn_ne_nil (before after : List Char) (c : Char) : lowerIn before after c ≠ [] := by
  rw [lowerIn]
  split
  · exact List.cons_ne_nil _ _
  · exact lowerChar_ne_nil c

/-! ### Lower case is final -/

/-- The code points of the capital ASCII letters. -/
def capitalCodes : List Nat :=
  List.range' 65 26

/-- No code point in lower case has a lower case of its own, or is a capital
ASCII letter. -/
theorem codeSet_lowerSources :
    codeSet (lowerSources ++ capitalCodes) &&& codeSet lowerTargets = 0 := by
  decide +kernel

theorem isValidChar_of_mem_lowerTargets : ∀ code ∈ lowerTargets, code.isValidChar := by
  decide +kernel

/-- The character is its own lower case, wherever it stands. -/
structure IsSmall (c : Char) : Prop where
  ne_sigma : c ≠ 'Σ'
  lowerChar_eq : lowerChar c = [c]

/-- A character that is not mapped and no capital ASCII letter is its own lower
case. -/
theorem isSmall_of_not_mem {c : Char} (h : c.toNat ∉ lowerSources ++ capitalCodes) :
    IsSmall c := by
  rw [List.mem_append, not_or] at h
  constructor
  · rintro rfl
    exact h.1 (by decide +kernel)
  · rw [lowerChar]
    split
    · rcases toLower_cases c with ⟨hletter, -⟩ | ⟨-, hsame⟩
      · refine absurd ?_ h.2
        simp only [capitalCodes, List.mem_range'_1]
        omega
      · rw [hsame]
    · exact mapCase_of_not_mem h.1

/-- What a character becomes in lower case is its own lower case. -/
theorem isSmall_of_mem_lowerChar {c d : Char} (hd : d ∈ lowerChar c) : IsSmall d := by
  by_cases hascii : c.toNat < 128
  · rw [lowerChar, if_pos hascii, List.mem_singleton] at hd
    have hcode : d.toNat < 128 ∧ ¬ (65 ≤ d.toNat ∧ d.toNat ≤ 90) := by
      rw [hd]
      rcases toLower_cases c with ⟨hletter, hlower⟩ | ⟨hother, hsame⟩
      · omega
      · rw [hsame]
        exact ⟨hascii, hother⟩
    -- The table begins beyond ASCII.
    have hsources : ∀ code ∈ lowerSources, 128 ≤ code := by decide +kernel
    refine isSmall_of_not_mem fun hmem => ?_
    rw [List.mem_append, capitalCodes, List.mem_range'_1] at hmem
    rcases hmem with hsource | hcapital
    · exact absurd (hsources _ hsource) (by omega)
    · omega
  · have hlower : lowerChar c = mapCase lowerRuns lowerSequences c := if_neg hascii
    rw [hlower] at hd
    rcases mem_mapCase hd with ⟨code, hcode, rfl⟩ | hsame
    · have htarget : code ∈ lowerTargets := hcode
      refine isSmall_of_not_mem ?_
      rw [Char.ofNat, dif_pos (isValidChar_of_mem_lowerTargets code htarget)]
      exact not_mem_of_codeSet codeSet_lowerSources htarget
    · rw [hsame] at hd
      obtain rfl := List.mem_singleton.1 hd
      refine ⟨?_, hlower.trans hsame⟩
      rintro rfl
      exact absurd (hlower.trans hsame) (by decide +kernel)

theorem isSmall_of_mem_lowerIn {before after : List Char} {c d : Char}
    (hd : d ∈ lowerIn before after c) : IsSmall d := by
  rw [lowerIn] at hd
  split at hd
  · obtain rfl := List.mem_singleton.1 hd
    have hsigma : 'σ' ∈ lowerChar 'Σ' := by decide +kernel
    have hfinal : 'ς' ∈ lowerChar 'ς' := by decide +kernel
    rw [lowerSigma]
    split
    · exact isSmall_of_mem_lowerChar hfinal
    · exact isSmall_of_mem_lowerChar hsigma
  · exact isSmall_of_mem_lowerChar hd

theorem isSmall_of_mem_lowerAfter {before cs : List Char} {d : Char}
    (hd : d ∈ lowerAfter before cs) : IsSmall d := by
  induction cs generalizing before with
  | nil => cases hd
  | cons c cs ih =>
    rw [lowerAfter_cons, List.mem_append] at hd
    rcases hd with hfirst | hrest
    · exact isSmall_of_mem_lowerIn hfirst
    · exact ih hrest

/-- What gives a list its form is its own lower case. -/
theorem isSmall_of_isListMark {c : Char} (h : isListMark c) : IsSmall c := by
  refine ⟨?_, lowerChar_of_isListMark h⟩
  rintro rfl
  revert h
  decide

theorem lowerAfter_of_isSmall {cs : List Char} (h : ∀ c ∈ cs, IsSmall c) (before : List Char) :
    lowerAfter before cs = cs := by
  induction cs generalizing before with
  | nil => rfl
  | cons c cs ih =>
    rw [List.forall_mem_cons] at h
    rw [lowerAfter_cons, lowerIn, if_neg h.1.ne_sigma, h.1.lowerChar_eq, ih h.2]
    rfl

/-- A text of characters in lower case is in lower case. -/
theorem lower_of_isSmall {text : String} (h : ∀ c ∈ text.toList, IsSmall c) : lower text = text := by
  rw [← String.toList_inj, toList_lower, lowerAfter_of_isSmall h]

theorem isSmall_of_mem_lower {text : String} : ∀ c ∈ (lower text).toList, IsSmall c := by
  intro c hc
  rw [toList_lower] at hc
  exact isSmall_of_mem_lowerAfter hc

/-- Lower case of lower case is lower case. -/
theorem lower_lower (text : String) : lower (lower text) = lower text :=
  lower_of_isSmall isSmall_of_mem_lower

end EventRules.Text

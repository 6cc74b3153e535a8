import EventRules.Script.Token
import EventRules.Text.Blank

/-!
# `EventRules.Proofs.Text.Upper`: upper case is final

Upper case of upper case changes nothing: what the table maps to is not
mapped again (`upper_upper`). Nor does upper case bring in a blank, a
percent sign or a number sign (`eq_of_mem_upperChar`). So a name may be
put into upper case before a script is written, and it is the same name
when the script is read.

Both are facts about the table. The code points it maps are
`upperSources`, those it maps to `upperTargets`, and the two lists are
compared as sets of bits (`codeSet`).
-/

set_option autoImplicit false

namespace EventRules.Text

/-! ### The table -/

/-- The code points that the run maps. -/
def CaseRun.codes (run : CaseRun) : List Nat :=
  (List.range ((run.last - run.first) / run.stride + 1)).map fun k => run.first + k * run.stride

/-- The code points that have an upper case, of one letter or more. -/
def upperSources : List Nat :=
  upperRuns.flatMap CaseRun.codes ++ upperSequences.map (·.1)

/-- The code points in upper case. -/
def upperTargets : List Nat :=
  upperRuns.flatMap (fun run => run.codes.map fun code => (Int.ofNat code + run.shift).toNat)
    ++ upperSequences.flatMap (·.2)

/-- The code points of the small ASCII letters, of the blanks and of the
two signs with which comments and spans begin. -/
def plainCodes : List Nat :=
  List.range' 97 26 ++ List.range' 9 5
    ++ [0x20, 0x85, 0xa0, 0x1680] ++ List.range' 0x2000 11
    ++ [0x2028, 0x2029, 0x202f, 0x205f, 0x3000, 0x23, 0x25]

theorem CaseRun.mem_codes {run : CaseRun} {code : Nat} (h : run.covers code) :
    code ∈ run.codes := by
  simp only [covers, Bool.and_eq_true, decide_eq_true_eq, beq_iff_eq] at h
  obtain ⟨⟨hfirst, hlast⟩, hmod⟩ := h
  rw [codes, List.mem_map]
  refine ⟨(code - run.first) / run.stride, ?_, ?_⟩
  · rw [List.mem_range, Nat.lt_succ_iff]
    exact Nat.div_le_div_right (by omega)
  · have hexact : (code - run.first) / run.stride * run.stride = code - run.first :=
      Nat.div_mul_cancel (Nat.dvd_of_mod_eq_zero hmod)
    omega

/-! ### Sets of code points -/

/-- The code points as the bits of a number. -/
def codeSet (codes : List Nat) : Nat :=
  codes.foldr (fun code set => (1 <<< code) ||| set) 0

theorem testBit_codeSet (codes : List Nat) (code : Nat) :
    (codeSet codes).testBit code = decide (code ∈ codes) := by
  induction codes with
  | nil => simp [codeSet]
  | cons first codes ih =>
    show ((1 <<< first) ||| codeSet codes).testBit code = _
    rw [Nat.testBit_or, ih, Nat.one_shiftLeft, Nat.testBit_two_pow]
    by_cases hcode : first = code
    · simp [hcode]
    · simp [hcode, Ne.symm hcode]

theorem not_mem_of_codeSet {first second : List Nat}
    (h : codeSet first &&& codeSet second = 0) {code : Nat} (hcode : code ∈ second) :
    code ∉ first := by
  intro hmem
  have hbit := congrArg (Nat.testBit · code) h
  simp only [Nat.testBit_and, testBit_codeSet, hmem, hcode, decide_true, Bool.and_self,
    Nat.zero_testBit] at hbit
  cases hbit

/-- No code point in upper case has an upper case of its own, or is
plain. -/
theorem codeSet_upper : codeSet (upperSources ++ plainCodes) &&& codeSet upperTargets = 0 := by
  decide +kernel

theorem isValidChar_of_mem : ∀ code ∈ upperTargets, code.isValidChar := by
  decide +kernel

/-! ### Characters -/

/-- A character is a small ASCII letter and its upper case stands 32
before it, or it is no such letter and keeps its place. -/
theorem toUpper_cases (c : Char) :
    (97 ≤ c.toNat ∧ c.toNat ≤ 122) ∧ c.toUpper.toNat + 32 = c.toNat
      ∨ ¬ (97 ≤ c.toNat ∧ c.toNat ≤ 122) ∧ c.toUpper = c := by
  have hiff : ('a'.val ≤ c.val ∧ c.val ≤ 'z'.val) ↔ (97 ≤ c.toNat ∧ c.toNat ≤ 122) := by
    rw [UInt32.le_iff_toNat_le, UInt32.le_iff_toNat_le]
    exact Iff.rfl
  delta Char.toUpper
  split
  · next h =>
    refine .inl ⟨hiff.1 h, ?_⟩
    -- The distance is added as a number of 32 bits.
    show (c.val + ('A'.val - 'a'.val)).toNat + 32 = c.val.toNat
    have hletter : 97 ≤ c.val.toNat ∧ c.val.toNat ≤ 122 := hiff.1 h
    have hdistance : ('A'.val - 'a'.val).toNat = 4294967264 := rfl
    rw [UInt32.toNat_add]
    omega
  · next h => exact .inr ⟨fun hletter => h (hiff.2 hletter), rfl⟩

/-- A character is a capital ASCII letter and its lower case stands 32
after it, or it is no such letter and keeps its place. -/
theorem toLower_cases (c : Char) :
    (65 ≤ c.toNat ∧ c.toNat ≤ 90) ∧ c.toLower.toNat = c.toNat + 32
      ∨ ¬ (65 ≤ c.toNat ∧ c.toNat ≤ 90) ∧ c.toLower = c := by
  have hiff : (c.val ≥ 'A'.val ∧ c.val ≤ 'Z'.val) ↔ (65 ≤ c.toNat ∧ c.toNat ≤ 90) := by
    rw [ge_iff_le, UInt32.le_iff_toNat_le, UInt32.le_iff_toNat_le]
    exact Iff.rfl
  delta Char.toLower
  split
  · next h =>
    refine .inl ⟨hiff.1 h, ?_⟩
    show (c.val + ('a'.val - 'A'.val)).toNat = c.val.toNat + 32
    have hletter : 65 ≤ c.val.toNat ∧ c.val.toNat ≤ 90 := hiff.1 h
    have hdistance : ('a'.val - 'A'.val).toNat = 32 := rfl
    rw [UInt32.toNat_add]
    omega
  · next h => exact .inr ⟨fun hletter => h (hiff.2 hletter), rfl⟩

theorem char_eq_of_toNat {c d : Char} (h : c.toNat = d.toNat) : c = d :=
  Char.ext (UInt32.toNat_inj.1 h)

/-- Upper case does not depend on the case before. -/
theorem toUpper_toLower (c : Char) : c.toLower.toUpper = c.toUpper := by
  rcases toLower_cases c with ⟨hletter, hlower⟩ | ⟨-, hsame⟩
  · have hupper : c.toUpper = c := by
      rcases toUpper_cases c with ⟨hsmall, -⟩ | ⟨-, hsame⟩
      · omega
      · exact hsame
    refine char_eq_of_toNat ?_
    rw [hupper]
    rcases toUpper_cases c.toLower with ⟨-, hback⟩ | ⟨hsmall, -⟩
    · omega
    · omega
  · rw [hsame]

/-- A blank, a percent sign or a number sign. -/
def isMark (c : Char) : Bool :=
  isBlank c || c = '%' || c = '#'

theorem mem_plainCodes_of_isMark {c : Char} (h : isMark c) : c.toNat ∈ plainCodes := by
  have hmark : isBlank c ∨ c.toNat = 0x25 ∨ c.toNat = 0x23 := by
    simp only [isMark, Bool.or_eq_true, decide_eq_true_eq] at h
    rcases h with (hblank | rfl) | rfl
    · exact .inl hblank
    · exact .inr (.inl rfl)
    · exact .inr (.inr rfl)
  simp only [plainCodes, List.mem_append, List.mem_range'_1, List.mem_cons, List.not_mem_nil,
    or_false]
  simp only [isBlank, Bool.or_eq_true, Bool.and_eq_true, decide_eq_true_eq] at hmark
  omega

/-- A character that the table does not name keeps its place. -/
theorem mapCase_of_not_mem {runs : List CaseRun} {sequences : List (Nat × List Nat)} {c : Char}
    (h : c.toNat ∉ runs.flatMap CaseRun.codes ++ sequences.map (·.1)) :
    mapCase runs sequences c = [c] := by
  have hrun : runs.find? (·.covers c.toNat) = none := by
    rw [List.find?_eq_none]
    intro run hrun hcovers
    refine h (List.mem_append_left _ ?_)
    exact List.mem_flatMap.2 ⟨run, hrun, CaseRun.mem_codes hcovers⟩
  have hsequence : sequences.lookup c.toNat = none := by
    rw [List.lookup_eq_none_iff]
    intro entry hentry
    rw [bne_iff_ne]
    intro heq
    refine h (List.mem_append_right _ ?_)
    exact List.mem_map.2 ⟨entry, hentry, heq.symm⟩
  rw [mapCase, hsequence, hrun]

/-- A character that is neither mapped nor plain is its own upper
case. -/
theorem upperChar_of_not_mem {c : Char} (h : c.toNat ∉ upperSources ++ plainCodes) :
    upperChar c = [c] := by
  rw [List.mem_append, not_or] at h
  rw [upperChar]
  split
  · rcases toUpper_cases c with ⟨hletter, -⟩ | ⟨-, hsame⟩
    · refine absurd ?_ h.2
      simp only [plainCodes, List.mem_append, List.mem_range'_1]
      omega
    · rw [hsame]
  · exact mapCase_of_not_mem h.1

/-- What the table maps to is not mapped again, and is no mark. -/
theorem toNat_ofNat_not_mem {code : Nat} (h : code ∈ upperTargets) :
    (Char.ofNat code).toNat ∉ upperSources ++ plainCodes := by
  have hsame : (Char.ofNat code).toNat = code := by
    rw [Char.ofNat, dif_pos (isValidChar_of_mem code h)]
    rfl
  rw [hsame]
  exact not_mem_of_codeSet codeSet_upper h

/-- The table maps a character to a sequence or along a run, or it does not
name the character. -/
theorem mapCase_cases (runs : List CaseRun) (sequences : List (Nat × List Nat)) (c : Char) :
    (∃ codes, (c.toNat, codes) ∈ sequences ∧ mapCase runs sequences c = codes.map Char.ofNat)
      ∨ (∃ run ∈ runs, run.covers c.toNat
          ∧ mapCase runs sequences c = [Char.ofNat (c.toNat + run.shift).toNat])
      ∨ mapCase runs sequences c = [c] := by
  rw [mapCase]
  cases hsequence : sequences.lookup c.toNat with
  | some codes =>
    obtain ⟨first, second, rfl, -⟩ := List.lookup_eq_some_iff.1 hsequence
    exact .inl ⟨codes, List.mem_append_right _ List.mem_cons_self, rfl⟩
  | none =>
    cases hrun : runs.find? (·.covers c.toNat) with
    | some run =>
      have hcovers := List.find?_some hrun
      exact .inr (.inl ⟨run, List.mem_of_find?_eq_some hrun, hcovers, rfl⟩)
    | none => exact .inr (.inr rfl)

/-- A character comes from the table, or the table does not name it. -/
theorem mem_mapCase {runs : List CaseRun} {sequences : List (Nat × List Nat)} {c d : Char}
    (h : d ∈ mapCase runs sequences c) :
    (∃ code ∈ runs.flatMap (fun run => run.codes.map fun code => (Int.ofNat code + run.shift).toNat)
          ++ sequences.flatMap (·.2), d = Char.ofNat code)
      ∨ mapCase runs sequences c = [c] := by
  rcases mapCase_cases runs sequences c with
    ⟨codes, hmem, hmap⟩ | ⟨run, hmem, hcovers, hmap⟩ | hsame
  · rw [hmap] at h
    obtain ⟨code, hcode, rfl⟩ := List.mem_map.1 h
    have htarget : code ∈ sequences.flatMap (·.2) := List.mem_flatMap.2 ⟨_, hmem, hcode⟩
    exact .inl ⟨code, List.mem_append_right _ htarget, rfl⟩
  · rw [hmap] at h
    obtain rfl := List.mem_singleton.1 h
    refine .inl ⟨_, List.mem_append_left _ (List.mem_flatMap.2 ⟨run, hmem, ?_⟩), rfl⟩
    exact List.mem_map.2 ⟨c.toNat, CaseRun.mem_codes hcovers, rfl⟩
  · exact .inr hsame

/-- Some character stands for every character of the table. -/
theorem mapCase_ne_nil {runs : List CaseRun} {sequences : List (Nat × List Nat)}
    (hsequences : ∀ entry ∈ sequences, entry.2 ≠ []) (c : Char) :
    mapCase runs sequences c ≠ [] := by
  rcases mapCase_cases runs sequences c with ⟨codes, hmem, hmap⟩ | ⟨run, -, -, hmap⟩ | hsame
  · rw [hmap, Ne, List.map_eq_nil_iff]
    exact hsequences _ hmem
  · rw [hmap]
    exact List.cons_ne_nil _ _
  · rw [hsame]
    exact List.cons_ne_nil _ _

/-- What a character becomes in upper case is its own upper case. It is a
mark only if it is the character itself. -/
theorem upperChar_of_mem {c d : Char} (h : d ∈ upperChar c) :
    upperChar d = [d] ∧ (isMark d → d = c) := by
  have hunmapped : ∀ d : Char, d.toNat ∉ upperSources ++ plainCodes →
      upperChar d = [d] ∧ (isMark d → d = c) := by
    intro d hd
    refine ⟨upperChar_of_not_mem hd, fun hmark => absurd ?_ hd⟩
    exact List.mem_append_right _ (mem_plainCodes_of_isMark hmark)
  by_cases hascii : c.toNat < 128
  · have hupper : upperChar c = [c.toUpper] := if_pos hascii
    rw [hupper] at h
    obtain rfl := List.mem_singleton.1 h
    rcases toUpper_cases c with ⟨hletter, hcapital⟩ | ⟨-, hsame⟩
    · -- A capital letter keeps its place.
      have hfixed : upperChar c.toUpper = [c.toUpper] := by
        rw [upperChar, if_pos (by omega)]
        rcases toUpper_cases c.toUpper with ⟨hsmall, -⟩ | ⟨-, hsame⟩
        · omega
        · rw [hsame]
      refine ⟨hfixed, fun hmark => absurd (mem_plainCodes_of_isMark hmark) ?_⟩
      simp only [plainCodes, List.mem_append, List.mem_range'_1, List.mem_cons, List.not_mem_nil,
        or_false]
      omega
    · rw [hsame] at hupper ⊢
      exact ⟨hupper, fun _ => rfl⟩
  · have hupper : upperChar c = mapCase upperRuns upperSequences c := if_neg hascii
    rw [hupper] at h
    rcases mem_mapCase h with ⟨code, hcode, rfl⟩ | hsame
    · exact hunmapped _ (toNat_ofNat_not_mem hcode)
    · rw [hsame] at h
      obtain rfl := List.mem_singleton.1 h
      exact ⟨hupper.trans hsame, fun _ => rfl⟩

/-- Every character has an upper case. -/
theorem upperChar_ne_nil (c : Char) : upperChar c ≠ [] := by
  have hsequences : ∀ entry ∈ upperSequences, entry.2 ≠ [] := by
    decide +kernel
  rw [upperChar]
  split
  · exact List.cons_ne_nil _ _
  · exact mapCase_ne_nil hsequences c

/-! ### Texts -/

@[simp] theorem toList_upper (text : String) :
    (upper text).toList = text.toList.flatMap upperChar :=
  String.toList_ofList

/-- Characters that become one character each. -/
theorem flatMap_upperChar {f : Char → Char} {cs : List Char}
    (h : ∀ c ∈ cs, upperChar c = [f c]) : cs.flatMap upperChar = cs.map f := by
  induction cs with
  | nil => rfl
  | cons c cs ih =>
    rw [List.forall_mem_cons] at h
    rw [List.flatMap_cons, h.1, ih h.2]
    rfl

/-- Upper case of upper case is upper case. -/
theorem upper_upper (text : String) : upper (upper text) = upper text := by
  have hfixed : ∀ d ∈ text.toList.flatMap upperChar, upperChar d = [id d] := by
    intro d hd
    obtain ⟨c, -, hc⟩ := List.mem_flatMap.1 hd
    exact (upperChar_of_mem hc).1
  rw [← String.toList_inj, toList_upper, toList_upper, flatMap_upperChar hfixed, List.map_id]

/-- A mark in upper case was there before. -/
theorem eq_of_mem_upperChar {c d : Char} (h : d ∈ upperChar c) (hmark : isMark d) : d = c :=
  (upperChar_of_mem h).2 hmark

/-- The text has no characters but capital ASCII letters. -/
def isCapitals (text : String) : Bool :=
  text.toList.all fun c => 65 ≤ c.toNat && c.toNat ≤ 90

theorem isCapitals_iff {text : String} :
    isCapitals text ↔ ∀ c ∈ text.toList, 65 ≤ c.toNat ∧ c.toNat ≤ 90 := by
  simp [isCapitals]

theorem isCapitals_keyword (keyword : Keyword) : isCapitals keyword.text := by
  cases keyword <;> rfl

/-- In another case such a text still has letters only. -/
theorem toNat_of_equalIgnoringCase {text word : String} (hword : isCapitals word)
    (h : equalIgnoringCase text word) {c : Char} (hc : c ∈ text.toList) :
    65 ≤ c.toNat ∧ c.toNat ≤ 122 := by
  have hlower : text.toList.map Char.toLower = word.toList.map Char.toLower := beq_iff_eq.1 h
  obtain ⟨d, hd, hsame⟩ := List.mem_map.1 (hlower ▸ List.mem_map_of_mem hc)
  have hcapital := isCapitals_iff.1 hword d hd
  have hcodes : d.toLower.toNat = c.toLower.toNat := congrArg Char.toNat hsame
  rcases toLower_cases c with ⟨hletter, -⟩ | ⟨-, hkept⟩
  · omega
  · rw [hkept] at hcodes
    rcases toLower_cases d with ⟨-, hmoved⟩ | ⟨hnot, -⟩ <;> omega

/-- A text that differs from capital letters at most in their case is these
letters in upper case. -/
theorem upper_of_equalIgnoringCase {text word : String} (hword : isCapitals word)
    (h : equalIgnoringCase text word) : upper text = word := by
  have hlower : text.toList.map Char.toLower = word.toList.map Char.toLower := beq_iff_eq.1 h
  have hchars : ∀ c ∈ text.toList, upperChar c = [c.toLower.toUpper] := by
    intro c hc
    have hletter := toNat_of_equalIgnoringCase hword h hc
    have hsmall : c.toNat < 128 := by omega
    rw [upperChar, if_pos hsmall, toUpper_toLower]
  have hback : (word.toList.map Char.toLower).map Char.toUpper = word.toList := by
    rw [List.map_map]
    refine (List.map_congr_left fun c hc => ?_).trans (List.map_id _)
    have hcapital := isCapitals_iff.1 hword c hc
    show c.toLower.toUpper = c
    rw [toUpper_toLower]
    rcases toUpper_cases c with ⟨hsmall, -⟩ | ⟨-, hkept⟩
    · omega
    · exact hkept
  rw [← String.toList_inj, toList_upper, flatMap_upperChar hchars, ← hback, ← hlower,
    List.map_map]
  rfl

/-- Words in upper case are, one space apart, the text in upper case. -/
theorem upper_intercalate (words : List String) :
    upper (" ".intercalate words) = " ".intercalate (words.map upper) := by
  have happend : ∀ first second : String,
      upper (first ++ second) = upper first ++ upper second := by
    intro first second
    rw [← String.toList_inj]
    simp
  induction words with
  | nil => rfl
  | cons word words ih =>
    by_cases hnil : words = []
    · rw [hnil]
      simp
    · rw [String.intercalate_cons_of_ne_nil hnil, List.map_cons,
        String.intercalate_cons_of_ne_nil (by simpa using hnil), happend, happend, ih]
      rfl

end EventRules.Text

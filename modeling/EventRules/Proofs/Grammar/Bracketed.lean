import EventRules.Proofs.Condition.Pieces
import EventRules.Proofs.Firing.Echo

/-!
# `EventRules.Proofs.Grammar.Bracketed`: predicates with a literal in brackets

A range and a list may be written with spaces and tabs around their pieces.
Three readers work on such a line, and none of them sees the literal as it
was written. The scanner tears it into words wherever there is a gap. The
predicate finds its beginning again, as the last word that begins with a
bracket, and joins the words with one space between any two. The operator then
reads what has come out of that.

* `Predicate.divide?_of_spaced`: whatever words a text in brackets falls into,
  they are divided from the symbol where the bracket opens. No other word after
  the symbol begins with a bracket, and the last word ends with one.
* `Predicate.read_bracketLine`: so the operator reads the same pieces in
  brackets, with every gap drawn together.

`Platform.ignoresSpacing` says what that comes to for `IN RANGE` and
`CONTAINS`. The pieces of a list must be items: a `%` or a `#` in one would
change how the line is read as a whole.
-/

set_option autoImplicit false

namespace EventRules

open Text

namespace Predicate

/-! ### Where the value begins -/

/-- Where no word begins with a bracket there is none to find. -/
theorem lastOpening?_eq_none {words : List String}
    (h : ∀ word ∈ words, word.toList.head? ≠ some '[') : lastOpening? words = none := by
  induction words with
  | nil => rfl
  | cons word words ih =>
    rw [List.forall_mem_cons] at h
    rw [lastOpening?, ih h.2]
    exact if_neg h.1

/-- The last word that begins with a bracket is the one after which none
does. -/
theorem lastOpening?_append {before rest : List String} {opening : String}
    (hopening : opening.toList.head? = some '[')
    (hrest : ∀ word ∈ rest, word.toList.head? ≠ some '[') :
    lastOpening? (before ++ opening :: rest) = some before.length := by
  induction before with
  | nil =>
    rw [List.nil_append, lastOpening?, lastOpening?_eq_none hrest]
    exact if_pos hopening
  | cons word before ih =>
    rw [List.cons_append, lastOpening?, ih]
    rfl

/-- A value in brackets is divided from the symbol before it where the bracket
opens. -/
theorem divide?_append {field opening : String} {symbol rest : List String} (hsymbol : symbol ≠ [])
    (hopening : opening.toList.head? = some '[')
    (hrest : ∀ word ∈ rest, word.toList.head? ≠ some '[')
    (hclosed : endsClosed (opening :: rest)) :
    divide? (field :: (symbol ++ opening :: rest))
      = some (field, upper (" ".intercalate symbol), " ".intercalate (opening :: rest)) := by
  have hends : endsClosed (field :: (symbol ++ opening :: rest)) = true := by
    rw [endsClosed, ← List.cons_append, List.getLast?_append_of_ne_nil _ (List.cons_ne_nil _ _)]
    exact hclosed
  have hstart : valueStart (field :: (symbol ++ opening :: rest)) = symbol.length + 1 := by
    rw [valueStart, if_pos hends, ← List.cons_append, lastOpening?_append hopening hrest]
    rfl
  have hlength : symbol.length ≠ 0 := by simpa using hsymbol
  rw [divide?, hstart, Nat.add_sub_cancel]
  simp only [hlength, if_false, List.take_left, List.drop_left]

/-- So the words of the value may be any that the text in brackets falls
into. -/
theorem divide?_of_spaced {field : String} {symbol words : List String} {inside : List Char}
    (hsymbol : symbol ≠ []) (h : Spaced words ('[' :: (inside ++ [']'])))
    (hwords : ∀ word ∈ words, IsSolid word.toList) (hinside : '[' ∉ inside) :
    divide? (field :: (symbol ++ words))
      = some (field, upper (" ".intercalate symbol), " ".intercalate words) := by
  have hlast := h.getLast?_eq hwords
  rw [← List.cons_append, List.getLast?_concat] at hlast
  have hclosed : endsClosed words := by
    obtain ⟨word, hword, hend⟩ := Option.bind_eq_some_iff.1 hlast
    rw [endsClosed, hword]
    simp [hend]
  obtain ⟨opening, rest, rfl⟩ := List.exists_cons_of_ne_nil h.ne_nil
  obtain ⟨others, htext, hmem⟩ := h.exists_rest
  obtain ⟨c, cs, hopening⟩ :=
    List.exists_cons_of_ne_nil (hwords opening List.mem_cons_self).ne_nil
  rw [hopening, List.cons_append] at htext
  obtain ⟨rfl, hinside'⟩ := List.cons.inj htext
  refine divide?_append hsymbol (by rw [hopening]; rfl) ?_ hclosed
  -- No bracket opens after the first one.
  intro word hword hhead
  have hbracket : '[' ∈ inside ++ [']'] := by
    rw [hinside']
    exact List.mem_append_right _ (hmem word hword '[' (List.mem_of_mem_head? hhead))
  rw [List.mem_append] at hbracket
  exact hbracket.elim hinside (by decide)

end Predicate

/-! ### Lines -/

/-- The line is the field, the words of a symbol in any case, and the pieces in
brackets with commas between them. There are gaps between the words, and there
may be gaps around each piece. -/
inductive BracketLine (field : String) (keywords pieces : List String) : String → Prop
  | mk {words : List String} {inside line : List Char}
      (hwords : List.Forall₂ (fun word keyword => equalIgnoringCase word keyword) words keywords)
      (hinside : Separated pieces inside)
      (hline : Spaced (field :: (words ++ [String.ofList ('[' :: (inside ++ [']']))])) line) :
      BracketLine field keywords pieces (String.ofList line)

/-- Letters in any case are a word of a script. -/
theorem Text.IsWord.of_equalIgnoringCase {word keyword : String} (hne : keyword ≠ "")
    (hkeyword : isCapitals keyword) (h : equalIgnoringCase word keyword) : IsWord word.toList := by
  have hletter : ∀ c ∈ word.toList, 65 ≤ c.toNat ∧ c.toNat ≤ 122 :=
    fun c hc => toNat_of_equalIgnoringCase hkeyword h hc
  have hother : ∀ {c d : Char}, c ∈ word.toList → d.toNat < 65 → c ≠ d := by
    rintro c d hc hd rfl
    have hcode := hletter c hc
    omega
  refine .of_isPlain ?_ ?_ ?_
  · intro hnil
    rw [equalIgnoringCase, hnil, beq_iff_eq, List.map_nil, eq_comm, List.map_eq_nil_iff] at h
    exact hne (String.toList_eq_nil_iff.1 h)
  · intro c hc
    refine isPlain_iff.2 ⟨?_, ?_, hother hc (by decide)⟩
    · intro hindent
      simp only [isIndent, Bool.or_eq_true, decide_eq_true_eq] at hindent
      exact hindent.elim (hother hc (by decide)) (hother hc (by decide))
    · intro hbreak
      exact (eq_of_isBreak hbreak).elim (hother hc (by decide)) (hother hc (by decide))
  · exact fun hhash => hother hhash (by decide) rfl

/-- The words that the pieces in brackets fall into are words of a script. -/
theorem Text.Separated.isWord {pieces words : List String} {inside : List Char}
    (h : Separated pieces inside) (hpieces : ∀ piece ∈ pieces, IsItem piece)
    (hspaced : Spaced words ('[' :: (inside ++ [']'])))
    (hsolid : ∀ word ∈ words, IsSolid word.toList) : ∀ word ∈ words, IsWord word.toList := by
  have hall : ∀ c ∈ '[' :: (inside ++ [']']), (isIndent c ∨ isPlain c) ∧ c ≠ '#' := by
    rw [List.forall_mem_cons, List.forall_mem_append, List.forall_mem_singleton]
    exact ⟨by decide, h.isPlain_of_mem hpieces, by decide⟩
  intro word hword
  have hsolid' := hsolid word hword
  refine .of_isPlain hsolid'.ne_nil (fun c hc => ?_) fun hhash => ?_
  · exact (hall c (hspaced.mem hword hc)).1.resolve_left (hsolid'.not_isIndent c hc)
  · exact (hall '#' (hspaced.mem hword hhash)).2 rfl

/-- So is each word of such a symbol. -/
theorem Text.isWord_of_symbol {words keywords : List String}
    (hkeywords : ∀ keyword ∈ keywords, isCapitals keyword ∧ keyword ≠ "")
    (h : List.Forall₂ (fun word keyword => equalIgnoringCase word keyword) words keywords) :
    ∀ word ∈ words, IsWord word.toList := by
  induction h with
  | nil => exact List.forall_mem_nil _
  | cons hword _ ih =>
    rw [List.forall_mem_cons] at hkeywords ⊢
    exact ⟨.of_equalIgnoringCase hkeywords.1.2 hkeywords.1.1 hword, ih hkeywords.2⟩

/-- A symbol in any case is the symbol in upper case. -/
theorem Text.upper_symbol {words keywords : List String}
    (hkeywords : ∀ keyword ∈ keywords, isCapitals keyword)
    (h : List.Forall₂ (fun word keyword => equalIgnoringCase word keyword) words keywords) :
    upper (" ".intercalate words) = " ".intercalate keywords := by
  rw [upper_intercalate]
  refine congrArg _ ?_
  induction h with
  | nil => rfl
  | cons hword _ ih =>
    rw [List.forall_mem_cons] at hkeywords
    rw [List.map_cons, upper_of_equalIgnoringCase hkeywords.1 hword, ih hkeywords.2]

/-- What the operator reads is the pieces in brackets, with the gaps drawn
together. -/
theorem Predicate.read_bracketLine {φ ε : Type} {platform : Platform φ ε}
    (hknown : platform.KnowsOperators) {field line : String}
    (hfield : tokenize field = [⟨.word, field, 1⟩]) (operator : Operator)
    {keywords pieces : List String} (hsymbol : " ".intercalate keywords = operator.symbol)
    (hkeywords : ∀ keyword ∈ keywords, isCapitals keyword ∧ keyword ≠ "")
    (hne : keywords ≠ []) (hpieces : ∀ piece ∈ pieces, IsItem piece)
    (h : BracketLine field keywords pieces line) :
    ∃ literal inside, literal.toList = '[' :: (inside ++ [']']) ∧ Separated pieces inside
      ∧ read platform (tokenize line) = (operator.read literal).map (⟨field, ·⟩) := by
  obtain ⟨hwords, hinside, hline⟩ := h
  rename_i words inside line
  obtain ⟨tight, htight, hrespaced⟩ := hinside.respaced hpieces (show ¬ isIndent '[' by decide)
  obtain ⟨torn, hspaced, hsolid, hjoined⟩ := hrespaced.exists_spaced
  refine ⟨" ".intercalate torn, tight, hjoined.symm, htight, ?_⟩
  -- The line is read as the field, the symbol and what the literal falls into.
  have hwhole : Spaced (field :: (words ++ torn)) line := by
    refine @Spaced.expand torn line (field :: words) _ hline ?_
    rw [String.toList_ofList]
    exact hspaced
  have hread : ∀ word ∈ field :: (words ++ torn), IsWord word.toList := by
    rw [List.forall_mem_cons, List.forall_mem_append]
    exact ⟨tokenize_legible field ⟨.word, field, 1⟩ (hfield ▸ List.mem_cons_self),
      isWord_of_symbol hkeywords hwords, hinside.isWord hpieces hspaced hsolid⟩
  have hbracket : '[' ∉ inside := hinside.not_mem hpieces (by decide) (by decide) rfl
  have hwords' : words ≠ [] := by
    rintro rfl
    exact hne (List.forall₂_nil_left_iff.1 hwords)
  have hupper := upper_symbol (fun keyword hkeyword => (hkeywords keyword hkeyword).1) hwords
  rw [Predicate.read, ofTokens, hwhole.texts_content hread,
    divide?_of_spaced hwords' hspaced hsolid hbracket, hupper, hsymbol]
  simp only [hknown operator]

/-! ### Lines without gaps in the brackets -/

/-- The line with one space between words and no gap in the brackets. -/
def plainLine (field : String) (keywords pieces : List String) : String :=
  " ".intercalate (field :: (keywords ++ ["[" ++ ",".intercalate pieces ++ "]"]))

/-- It is one of the lines with the same pieces. -/
theorem bracketLine_plainLine (field : String) (keywords : List String) {pieces : List String}
    (hne : pieces ≠ []) : BracketLine field keywords pieces (plainLine field keywords pieces) := by
  have hsame : List.Forall₂ (fun word keyword => equalIgnoringCase word keyword) keywords
      keywords := List.forall₂_same.2 fun keyword _ => beq_self_eq_true _
  have hliteral : String.ofList ('[' :: ((",".intercalate pieces).toList ++ [']']))
      = "[" ++ ",".intercalate pieces ++ "]" := by
    rw [← String.toList_inj]
    simp
  have hline := Spaced.intercalate (List.cons_ne_nil field
    (keywords ++ [String.ofList ('[' :: ((",".intercalate pieces).toList ++ [']']))]))
  have hplain := BracketLine.mk hsame (.intercalate hne) hline
  rwa [hliteral, String.ofList_toList] at hplain

namespace Platform

variable {φ ε : Type}

/-- Gaps in the brackets do not matter to a predicate of the field, nor does the
case of a symbol or the width of the gaps between its words. -/
structure IgnoresSpacing (platform : Platform φ ε) (field : String) : Prop where
  /-- A range is read as it is without gaps, from one number to the other. -/
  range : ∀ (lo hi : Numeral) (low high line : String), lo.Spells low.toList →
    hi.Spells high.toList → lo.toDouble.le hi.toDouble →
    BracketLine field ["IN", "RANGE"] [low, high] line →
    Predicate.read platform (tokenize line)
        = Predicate.read platform (tokenize (plainLine field ["IN", "RANGE"] [low, high]))
      ∧ Predicate.read platform (tokenize line)
        = .ok ⟨field, .inRange lo.toDouble hi.toDouble⟩
  /-- A list is read as it is without gaps, as its items in lower case. -/
  list : ∀ (items : List String) (line : String), items ≠ [] → (∀ item ∈ items, IsItem item) →
    BracketLine field ["CONTAINS"] items line →
    Predicate.read platform (tokenize line)
        = Predicate.read platform (tokenize (plainLine field ["CONTAINS"] items))
      ∧ Predicate.read platform (tokenize line)
        = .ok ⟨field, .contains (.anyOf (.ofList (items.map lower)))⟩

/-- A range on such a line is read. -/
theorem read_rangeLine {platform : Platform φ ε} (hknown : platform.KnowsOperators)
    {field low high line : String} (hfield : tokenize field = [⟨.word, field, 1⟩])
    {lo hi : Numeral} (hlow : lo.Spells low.toList) (hhigh : hi.Spells high.toList)
    (hle : lo.toDouble.le hi.toDouble) (h : BracketLine field ["IN", "RANGE"] [low, high] line) :
    Predicate.read platform (tokenize line)
      = .ok ⟨field, .inRange lo.toDouble hi.toDouble⟩ := by
  have hpieces : ∀ piece ∈ [low, high], IsItem piece := by
    rw [List.forall_mem_cons, List.forall_mem_singleton]
    exact ⟨hlow.isItem, hhigh.isItem⟩
  obtain ⟨literal, inside, hliteral, hinside, hread⟩ := Predicate.read_bracketLine hknown hfield
    .inRange (by decide +kernel) (by decide) (by decide) hpieces h
  have hrange : Operator.inRange.read literal = .ok (.inRange lo.toDouble hi.toDouble) := by
    refine Operator.read_inRange_eq_ok_iff.2 ⟨lo, hi, ?_, hle, rfl⟩
    rw [hliteral, trimChars_bracketed]
    exact hinside.spellsRange hlow hhigh
  rw [hread, hrange]
  rfl

/-- A list on such a line is read. -/
theorem read_listLine {platform : Platform φ ε} (hknown : platform.KnowsOperators)
    {field line : String} (hfield : tokenize field = [⟨.word, field, 1⟩]) {items : List String}
    (hitems : ∀ item ∈ items, IsItem item) (h : BracketLine field ["CONTAINS"] items line) :
    Predicate.read platform (tokenize line)
      = .ok ⟨field, .contains (.anyOf (.ofList (items.map lower)))⟩ := by
  obtain ⟨literal, inside, hliteral, hinside, hread⟩ := Predicate.read_bracketLine hknown hfield
    .contains (by decide +kernel) (by decide) (by decide) hitems h
  rw [hread, Operator.read_contains_of_isList (hinside.isList hitems hliteral),
    hinside.itemsOf_eq hitems]
  rfl

/-- A platform that is given the operators, and none of their symbols later,
ignores the spacing of predicates of any field that is one word. -/
theorem ignoresSpacing (name : String) {before after : List (Registration φ ε)}
    (hafter : ∀ registration ∈ after, ¬ registration.TakesSymbol) {field : String}
    (hfield : tokenize field = [⟨.word, field, 1⟩]) :
    (ofRegistrations name (before ++ .standardComparators :: after)).IgnoresSpacing field := by
  have hknown : (ofRegistrations name (before ++ .standardComparators :: after)).KnowsOperators :=
    knowsOperators name hafter
  constructor
  · intro lo hi low high line hlow hhigh hle hline
    have hplain := bracketLine_plainLine field ["IN", "RANGE"] (List.cons_ne_nil low [high])
    rw [read_rangeLine hknown hfield hlow hhigh hle hline,
      read_rangeLine hknown hfield hlow hhigh hle hplain]
    exact ⟨rfl, rfl⟩
  · intro items line hne hitems hline
    have hplain := bracketLine_plainLine field ["CONTAINS"] hne
    rw [read_listLine hknown hfield hitems hline, read_listLine hknown hfield hitems hplain]
    exact ⟨rfl, rfl⟩

/-- Two numbers with gaps around them, and an item of two words. -/
theorem ignoresSpacing_echo :
    Predicate.read Echo.platform (tokenize "amount in\tRange [ -5 ,\t+1.5]")
        = .ok ⟨"amount", .inRange (Numeral.toDouble ⟨true, ['5'], []⟩)
          (Numeral.toDouble ⟨false, ['1'], ['5']⟩)⟩
      ∧ Predicate.read Echo.platform (tokenize "#tags  ContainS [\tVIP guest , x]")
        = .ok ⟨"#tags", .contains (.anyOf (.ofList ["vip guest", "x"]))⟩ := by
  have htab : IsGap ['\t'] := List.forall_mem_singleton.2 rfl
  have hwide : IsGap [' ', ' '] := List.forall_mem_cons.2 ⟨rfl, IsGap.space⟩
  have hspacing : ∀ field, tokenize field = [⟨.word, field, 1⟩] →
      Echo.platform.IgnoresSpacing field := by
    intro field hfield
    have hplatform : Echo.platform = ofRegistrations "Echo"
        ([.action "ECHO" .echo] ++ .standardComparators :: []) := by
      rw [Echo.platform, List.singleton_append]
    rw [hplatform]
    exact ignoresSpacing "Echo" (List.forall_mem_nil _) hfield
  constructor
  · have hinside := @Separated.cons "-5" _ _ _ _ .space .space
      (@Separated.single "+1.5" _ _ htab .nil)
    have hline : BracketLine "amount" ["IN", "RANGE"] ["-5", "+1.5"]
        "amount in\tRange [ -5 ,\t+1.5]" :=
      @BracketLine.mk "amount" ["IN", "RANGE"] _ ["in", "Range"] _ _
        (.cons rfl (.cons rfl .nil)) hinside
        (.cons .space (by decide) (.cons htab (by decide) (.cons .space (by decide) .single)))
    have hone : IsDigits ['1'] := ⟨List.cons_ne_nil _ _, List.forall_mem_singleton.2 rfl⟩
    have hfive : IsDigits ['5'] := ⟨List.cons_ne_nil _ _, List.forall_mem_singleton.2 rfl⟩
    have hlow : Numeral.Spells ⟨true, ['5'], []⟩ "-5".toList :=
      @Numeral.Spells.mk ⟨true, ['5'], []⟩ _ _ .minus hfive .none
    have hhigh : Numeral.Spells ⟨false, ['1'], ['5']⟩ "+1.5".toList :=
      @Numeral.Spells.mk ⟨false, ['1'], ['5']⟩ _ _ .plus hone (.digits hfive)
    exact ((hspacing "amount" (by decide +kernel)).range _ _ _ _ _ hlow hhigh
      (by decide +kernel) hline).2
  · have hinside := @Separated.cons "VIP guest" _ _ _ _ htab .space
      (@Separated.single "x" _ _ .space .nil)
    have hline : BracketLine "#tags" ["CONTAINS"] ["VIP guest", "x"]
        "#tags  ContainS [\tVIP guest , x]" :=
      @BracketLine.mk "#tags" ["CONTAINS"] _ ["ContainS"] _ _ (.cons rfl .nil) hinside
        (.cons hwide (by decide) (.cons .space (by decide) .single))
    have hguest : IsItem "VIP guest" := by
      refine @IsItem.mk ["VIP", "guest"] (by decide) ?_
      simp only [← List.all_eq_true]
      decide +kernel
    have hx : IsItem "x" := by
      refine @IsItem.mk ["x"] (by decide) ?_
      simp only [← List.all_eq_true]
      decide +kernel
    exact ((hspacing "#tags" (by decide +kernel)).list _ _ (by decide)
      (List.forall_mem_cons.2 ⟨hguest, List.forall_mem_singleton.2 hx⟩) hline).2

end Platform

end EventRules

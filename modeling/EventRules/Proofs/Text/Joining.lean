import EventRules.Proofs.Script.WordSplitting
import EventRules.Proofs.Script.Written

/-!
# `EventRules.Proofs.Text.Joining`: words written and read back

`joinWords` puts a word that would fall apart into a span and leaves the
others as they are, and `splitWords` reads both forms.

* `WordState.scan_writeWord`: between words, the splitter has the word
  under way after reading it as it is written. A backslash needs no care
  outside a span, where it is a character like any other, and inside one
  it is written twice.
* `WordState.ne_empty_of_mem_scan`: the splitter completes no word without
  text, whatever it reads.

`splitWords_joinWords` puts the two together. Words without text are the
only ones that do not come back: `joinWords` writes nothing for them.
-/

set_option autoImplicit false

namespace EventRules.Text

namespace WordState

/-! ### Words have text -/

theorem ne_empty_of_mem_finished {state : WordState} {word : String}
    (h : word ∈ state.finished) : word ≠ "" := by
  rw [finished] at h
  by_cases hempty : state.word.isEmpty
  · rw [if_pos hempty] at h
    cases h
  · rw [if_neg hempty, List.mem_singleton] at h
    rw [h]
    exact fun hnil => hempty (String.isEmpty_iff.2 hnil)

/-- A character completes the word under way or nothing. -/
theorem ne_empty_of_mem_step {state : WordState} {c : Char} {word : String}
    (h : word ∈ (state.step c).1) : word ≠ "" := by
  rw [step] at h
  cases hspan : state.span with
  | none =>
    simp only [hspan] at h
    by_cases hblank : isBlank c
    · rw [if_pos hblank] at h
      exact ne_empty_of_mem_finished h
    rw [if_neg hblank] at h
    by_cases hpercent : c = '%'
    · rw [if_pos hpercent] at h
      cases h
    · rw [if_neg hpercent] at h
      cases h
  | some escaping =>
    simp only [hspan] at h
    cases hread : Span.read escaping c with
    | add text =>
      rw [hread] at h
      cases h
    | escape =>
      rw [hread] at h
      cases h
    | close =>
      rw [hread] at h
      cases h

theorem ne_empty_of_mem_scan {state : WordState} {cs : List Char} {word : String}
    (h : word ∈ state.scan cs) : word ≠ "" := by
  induction cs generalizing state with
  | nil => exact ne_empty_of_mem_finished h
  | cons c cs ih =>
    rw [scan, List.mem_append] at h
    rcases h with hstep | hrest
    · exact ne_empty_of_mem_step hstep
    · exact ih hrest

/-! ### One word as it is written -/

/-- Characters that neither end a word nor open a span are of the word. -/
theorem scan_plain {cs : List Char} (hcs : ∀ c ∈ cs, ¬ isBlank c ∧ c ≠ '%') (word : String)
    (ds : List Char) :
    (⟨word, none⟩ : WordState).scan (cs ++ ds)
      = (⟨word ++ String.ofList cs, none⟩ : WordState).scan ds := by
  induction cs generalizing word with
  | nil => rw [String.ofList_nil, String.append_empty, List.nil_append]
  | cons c cs ih =>
    rw [List.forall_mem_cons] at hcs
    obtain ⟨hblank, hpercent⟩ := hcs.1
    have hstep : (⟨word, none⟩ : WordState).step c = ([], ⟨word.push c, none⟩) := by
      simp only [step]
      rw [if_neg hblank, if_neg hpercent]
      rfl
    have hpush : word.push c ++ String.ofList cs = word ++ String.ofList (c :: cs) := by
      rw [← String.toList_inj]
      simp
    rw [List.cons_append, scan, hstep, ih hcs.2, hpush]
    rfl

theorem word_add (text : List Char) (state : WordState) :
    (state.add text).word = state.word ++ String.ofList text := by
  show text.foldl String.push state.word = _
  generalize state.word = word
  induction text generalizing word with
  | nil => exact String.append_empty.symm
  | cons c text ih =>
    rw [List.foldl_cons, ih, ← String.toList_inj]
    simp

/-- What a span holds is of the word. -/
theorem scan_held {escaping escaping' : Bool} {cs text : List Char}
    (h : Span.held escaping cs = some (text, escaping')) (word : String) (ds : List Char) :
    (⟨word, some escaping⟩ : WordState).scan (cs ++ ds)
      = (⟨word ++ String.ofList text, some escaping'⟩ : WordState).scan ds := by
  induction cs generalizing word escaping text with
  | nil =>
    cases h
    rw [String.ofList_nil, String.append_empty, List.nil_append]
  | cons c cs ih =>
    rw [Span.held] at h
    rw [List.cons_append, scan, step]
    cases hread : Span.read escaping c with
    | add added =>
      rw [hread] at h
      obtain ⟨⟨rest, last⟩, hrest, hpair⟩ := Option.map_eq_some_iff.1 h
      cases hpair
      have hadd := word_add added ⟨word, some escaping⟩
      simp only [hread, List.nil_append, hadd]
      rw [ih hrest, String.ofList_append, String.append_assoc]
    | escape =>
      rw [hread] at h
      simp only [hread, List.nil_append]
      exact ih h word
    | close =>
      rw [hread] at h
      cases h

/-- Between words, a word is read from the form it is written in. -/
theorem scan_writeWord (word : String) (ds : List Char) :
    start.scan ((writeWord word).toList ++ ds) = (⟨word, none⟩ : WordState).scan ds := by
  have hempty : "" ++ word = word := String.empty_append
  by_cases hmark : word.toList.any fun c => isBlank c || c = '%'
  · -- The span is opened, holds the word, and is closed.
    have hheld := Span.held_write word.toList
    have hclose : (⟨word, some false⟩ : WordState).scan ('%' :: ds)
        = (⟨word, none⟩ : WordState).scan ds := rfl
    have hopen : start.scan ('%' :: (word.toList.flatMap Span.writeChar ++ ('%' :: ds)))
        = (⟨"", some false⟩ : WordState).scan
            (word.toList.flatMap Span.writeChar ++ ('%' :: ds)) := rfl
    have hwritten : (writeWord word).toList ++ ds
        = '%' :: (word.toList.flatMap Span.writeChar ++ ('%' :: ds)) := by
      rw [writeWord, if_pos hmark, Span.write, String.toList_ofList]
      simp
    rw [hwritten, hopen, scan_held hheld, String.ofList_toList, hempty, hclose]
  · have hplain : ∀ c ∈ word.toList, ¬ isBlank c ∧ c ≠ '%' := by
      intro c hc
      rw [List.any_eq_true] at hmark
      refine ⟨fun hblank => hmark ⟨c, hc, ?_⟩, fun hpercent => hmark ⟨c, hc, ?_⟩⟩
      · rw [hblank, Bool.true_or]
      · rw [decide_eq_true hpercent, Bool.or_true]
    rw [writeWord, if_neg hmark, start, scan_plain hplain, String.ofList_toList, hempty]

/-- A word with text is completed before a blank and at the end. -/
theorem scan_completed {word : String} (h : word ≠ "") {cs : List Char}
    (hcs : cs.head?.all isBlank) :
    (⟨word, none⟩ : WordState).scan cs = word :: start.scan cs := by
  have hempty : ¬ word.isEmpty := fun hnil => h (String.isEmpty_iff.1 hnil)
  rw [scan_ended word hcs, finished, if_neg hempty]
  rfl

end WordState

/-! ### Lists of words -/

theorem ne_empty_of_mem_splitWords {text word : String} (h : word ∈ splitWords text) :
    word ≠ "" :=
  WordState.ne_empty_of_mem_scan h

/-- Words with text come back from the text they are joined in. -/
theorem splitWords_joinWords_of_ne_empty {words : List String}
    (h : ∀ word ∈ words, word ≠ "") : splitWords (joinWords words) = words := by
  rw [splitWords, joinWords]
  induction words with
  | nil => rfl
  | cons word rest ih =>
    rw [List.forall_mem_cons] at h
    cases rest with
    | nil =>
      have hwritten := WordState.scan_writeWord word []
      rw [List.append_nil] at hwritten
      rw [List.map_singleton, String.intercalate_singleton, hwritten,
        WordState.scan_completed h.1 rfl]
      rfl
    | cons next rest =>
      have hspace : ∀ cs, WordState.start.scan (" ".toList ++ cs) = WordState.start.scan cs :=
        fun _ => rfl
      rw [List.map_cons, List.map_cons, String.intercalate_cons_cons, String.toList_append,
        String.toList_append, List.append_assoc, WordState.scan_writeWord,
        WordState.scan_completed h.1 rfl, hspace, ← List.map_cons, ih h.2]

/-- Joining and splitting undo each other. Words with text are joined into
a text that is split into the same words; every text is split into words
with text; and so the words of a text, joined, are split again as
before. -/
theorem splitWords_joinWords :
    (∀ words : List String, (∀ word ∈ words, word ≠ "") →
        splitWords (joinWords words) = words)
      ∧ (∀ text, ∀ word ∈ splitWords text, word ≠ "")
      ∧ ∀ text, splitWords (joinWords (splitWords text)) = splitWords text := by
  have hwords : ∀ text, ∀ word ∈ splitWords text, word ≠ "" :=
    fun _ _ hword => ne_empty_of_mem_splitWords hword
  exact ⟨fun _ h => splitWords_joinWords_of_ne_empty h, hwords,
    fun text => splitWords_joinWords_of_ne_empty (hwords text)⟩

/-- Words of blanks, signs and backslashes, some of them at an end. -/
theorem splitWords_joinWords_signs :
    joinWords ["%", "\\", "a\\", "a b\\", "\\%\\", " ", "\u3000", "%%"]
        = "%\\%% \\ a\\ %a b\\\\% %\\\\\\%\\\\% % % %\u3000% %\\%\\%%"
      ∧ splitWords "%\\%% \\ a\\ %a b\\\\% %\\\\\\%\\\\% % % %\u3000% %\\%\\%%"
        = ["%", "\\", "a\\", "a b\\", "\\%\\", " ", "\u3000", "%%"] := by
  have hjoined : joinWords ["%", "\\", "a\\", "a b\\", "\\%\\", " ", "\u3000", "%%"]
      = "%\\%% \\ a\\ %a b\\\\% %\\\\\\%\\\\% % % %\u3000% %\\%\\%%" := by
    decide +kernel
  refine ⟨hjoined, ?_⟩
  rw [← hjoined]
  exact splitWords_joinWords.1 _ (by decide)

end EventRules.Text

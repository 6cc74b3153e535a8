import EventRules.Text.Template

/-!
# `EventRules.Proofs.Text.Placeholders`: texts with placeholders

A text is read from left to right, a character at a time, with the name
of an open placeholder carried along. The theorems say what this comes to
without mention of the order:

* `flatMap_chars_pieces`: the pieces of a text are the text, so nothing is
  lost or doubled (`fill_eq_self`).
* `pieces_append`: a text may be read in two parts, unless the first one
  leaves a placeholder open (`Complete`) or a `$` at the end of it and a
  brace after it make one. Then its parts are filled in apart (`fill_append`),
  and no value is read again.
* `slot_mem_pieces_iff`: which names the placeholders have.

Inside an open placeholder a `${` has no meaning, so `${a${b}` has the one
name `a${b`. It counts for `Complete` all the same, since the brace that
closes the one comes after the other too.
-/

set_option autoImplicit false

namespace EventRules.Text.Template

/-- The two characters that open a placeholder. -/
def opening : List Char := ['$', '\x7b']

/-- No placeholder is open at the end: after each `${` there is a closing
brace. -/
def Complete : List Char → Prop
  | [] => True
  | c :: cs => (c = '$' → cs.head? = some '\x7b' → '\x7d' ∈ cs) ∧ Complete cs

instance Complete.decidable : (cs : List Char) → Decidable (Complete cs)
  | [] => isTrue trivial
  | _ :: cs =>
    have := decidable cs
    inferInstanceAs (Decidable (_ ∧ _))

/-- A placeholder as it is written, by its characters. -/
def slotChars (name : List Char) : List Char :=
  opening ++ name ++ ['\x7d']

/-- The characters of a piece. -/
def Piece.chars : Piece → List Char
  | char c => [c]
  | slot name => slotChars name

/-- The characters of the placeholder that is open, if one is. -/
def openChars : Option (List Char) → List Char
  | none => []
  | some name => opening ++ name.reverse

theorem toList_slotText (name : String) : (slotText name).toList = slotChars name.toList := by
  simp [slotText, slotChars, opening]

/-! ### The pieces are the text -/

theorem flatMap_chars_unclosed (name : List Char) :
    (unclosed name).flatMap Piece.chars = openChars (some name) := by
  show '$' :: '\x7b' :: (name.reverse.map Piece.char).flatMap Piece.chars = _
  rw [List.flatMap_map]
  exact congrArg (opening ++ ·) (List.flatMap_singleton' name.reverse)

theorem flatMap_chars_piecesFrom (opened : Option (List Char)) (cs : List Char) :
    (piecesFrom opened cs).flatMap Piece.chars = openChars opened ++ cs := by
  fun_induction piecesFrom opened cs with
  | case1 => rfl
  | case2 cs ih => exact ih
  | case3 c cs _ ih => exact congrArg (c :: ·) ih
  | case4 name => rw [flatMap_chars_unclosed, List.append_nil]
  | case5 name cs ih => simpa [Piece.chars, slotChars, openChars] using ih
  | case6 name c cs _ ih => simpa [openChars] using ih

/-- The pieces of a text are the text, cut up. -/
theorem flatMap_chars_pieces (cs : List Char) : (pieces cs).flatMap Piece.chars = cs :=
  flatMap_chars_piecesFrom none cs

/-! ### Complete texts -/

/-- What stands before a closing brace is closed by it. -/
theorem complete_append_brace (first : List Char) {second : List Char} (h : Complete second) :
    Complete (first ++ '\x7d' :: second) := by
  induction first with
  | nil => exact ⟨nofun, h⟩
  | cons c first ih => exact ⟨fun _ _ => by simp, ih⟩

theorem complete_of_noOpening {cs : List Char} (h : ¬ opening <:+: cs) : Complete cs := by
  induction cs with
  | nil => trivial
  | cons c cs ih =>
    rw [List.infix_cons_iff, not_or] at h
    refine ⟨?_, ih h.2⟩
    rintro rfl hhead
    obtain ⟨rest, rfl⟩ := List.head?_eq_some_iff.1 hhead
    exact absurd (List.prefix_append opening rest) h.1

/-- A character that does not open a placeholder with the one after it. -/
theorem piecesFrom_char {c : Char} {cs : List Char} (h : c = '$' → cs.head? ≠ some '\x7b') :
    piecesFrom none (c :: cs) = .char c :: piecesFrom none cs := by
  refine piecesFrom.eq_3 c cs ?_
  rintro rest hc rfl
  exact h hc rfl

theorem getLast?_cons_of {c d : Char} {cs : List Char} (h : cs.getLast? = some d) :
    (c :: cs).getLast? = some d := by
  rw [List.getLast?_cons, h]
  rfl

/-- The text after the first part is read as if nothing stood before it. -/
theorem piecesFrom_append {opened : Option (List Char)} {cs : List Char}
    (hopened : opened.isSome → '\x7d' ∈ cs) (hcs : Complete cs) {ds : List Char}
    (hcut : cs.getLast? = some '$' → ds.head? ≠ some '\x7b') :
    piecesFrom opened (cs ++ ds) = piecesFrom opened cs ++ pieces ds := by
  fun_induction piecesFrom opened cs with
  | case1 => rfl
  | case2 cs ih =>
    obtain ⟨hclosed, -, hcs⟩ := hcs
    have hmem : '\x7d' ∈ cs := by simpa using hclosed rfl rfl
    exact ih (fun _ => hmem) hcs fun hlast => hcut (getLast?_cons_of (getLast?_cons_of hlast))
  | case3 c cs hc ih =>
    have hhead : c = '$' → (cs ++ ds).head? ≠ some '\x7b' := by
      rintro rfl
      cases cs with
      | nil => exact hcut rfl
      | cons d cs =>
        rintro ⟨⟩
        exact hc cs rfl rfl
    rw [List.cons_append, piecesFrom_char hhead,
      ih nofun hcs.2 fun hlast => hcut (getLast?_cons_of hlast)]
    rfl
  | case4 name => exact absurd (hopened rfl) List.not_mem_nil
  | case5 name cs ih =>
    rw [List.cons_append, piecesFrom, ih nofun hcs.2 fun hlast => hcut (getLast?_cons_of hlast)]
    rfl
  | case6 name c cs hc ih =>
    -- The brace that closes the placeholder is still to come.
    have hmem : '\x7d' ∈ cs := (List.mem_cons.1 (hopened rfl)).resolve_left fun h => hc h.symm
    rw [List.cons_append, piecesFrom.eq_6 name c _ hc,
      ih (fun _ => hmem) hcs.2 fun hlast => hcut (getLast?_cons_of hlast)]

/-- A text may be read in two parts where no placeholder is open. -/
theorem pieces_append {cs ds : List Char} (hcs : Complete cs)
    (hcut : cs.getLast? = some '$' → ds.head? ≠ some '\x7b') :
    pieces (cs ++ ds) = pieces cs ++ pieces ds := by
  have hnone : (none : Option (List Char)).isSome → '\x7d' ∈ cs := nofun
  exact piecesFrom_append hnone hcs hcut

/-! ### The names of placeholders -/

/-- Characters with no closing brace among them are the name of a
placeholder that one follows. -/
theorem piecesFrom_name {first name : List Char} (h : '\x7d' ∉ name) (cs : List Char) :
    piecesFrom (some first) (name ++ '\x7d' :: cs)
      = .slot (first.reverse ++ name) :: pieces cs := by
  induction name generalizing first with
  | nil => simp [piecesFrom, pieces]
  | cons c name ih =>
    rw [List.mem_cons, not_or] at h
    rw [List.cons_append, piecesFrom.eq_6 first c _ fun hbrace => h.1 hbrace.symm, ih h.2]
    simp

theorem pieces_slotChars {name : List Char} (h : '\x7d' ∉ name) (cs : List Char) :
    pieces (slotChars name ++ cs) = .slot name :: pieces cs := by
  have hchars : slotChars name ++ cs = '$' :: '\x7b' :: (name ++ '\x7d' :: cs) := by
    simp [slotChars, opening]
  rw [hchars, pieces, piecesFrom]
  exact piecesFrom_name h cs

/-- The name stands in a placeholder of the text. -/
def Names (name cs : List Char) : Prop :=
  ∃ before after, cs = before ++ (slotChars name ++ after) ∧ '\x7d' ∉ name ∧ Complete before

theorem Names.opens {name cs : List Char} (h : Names name cs) : opening <:+: cs := by
  obtain ⟨before, after, rfl, -, -⟩ := h
  exact ⟨before, name ++ '\x7d' :: after, by simp [slotChars]⟩

theorem Names.closes {name cs : List Char} (h : Names name cs) : '\x7d' ∈ cs := by
  obtain ⟨before, after, rfl, -, -⟩ := h
  simp [slotChars]

theorem names_of_mem_piecesFrom {opened : Option (List Char)} {cs name : List Char}
    (hopened : ∀ first ∈ opened, '\x7d' ∉ first) (h : .slot name ∈ piecesFrom opened cs) :
    Names name (openChars opened ++ cs) := by
  fun_induction piecesFrom opened cs with
  | case1 => cases h
  | case2 cs ih =>
    have hnil : ∀ first ∈ some ([] : List Char), '\x7d' ∉ first := by simp
    exact ih hnil h
  | case3 c cs hc ih =>
    obtain ⟨before, after, hcs, hname, hbefore⟩ :=
      ih nofun ((List.mem_cons.1 h).resolve_left nofun)
    refine ⟨c :: before, after, congrArg (c :: ·) hcs, hname, ?_, hbefore⟩
    intro hdollar hhead
    obtain ⟨rest, rfl⟩ := List.head?_eq_some_iff.1 hhead
    exact absurd hcs fun hcs => hc _ hdollar hcs
  | case4 first => simp [unclosed] at h
  | case5 first cs ih =>
    rcases List.mem_cons.1 h with hfirst | hlater
    · cases hfirst
      refine ⟨[], cs, ?_, ?_, trivial⟩
      · simp [openChars, slotChars]
      · simpa using hopened first rfl
    · obtain ⟨before, after, hcs, hname, hbefore⟩ := ih nofun hlater
      refine ⟨openChars (some first) ++ '\x7d' :: before, after, ?_, hname,
        complete_append_brace _ hbefore⟩
      rw [show cs = _ from hcs]
      simp
  | case6 first c cs hc ih =>
    have hmore : ∀ second ∈ some (c :: first), '\x7d' ∉ second := by
      rintro _ ⟨⟩
      rw [List.mem_cons, not_or]
      exact ⟨fun hbrace => hc hbrace.symm, hopened first rfl⟩
    have hnames := ih hmore h
    simpa [openChars] using hnames

/-- The placeholders of a text. -/
theorem slot_mem_pieces_iff {cs name : List Char} : .slot name ∈ pieces cs ↔ Names name cs := by
  constructor
  · intro h
    have hnone : ∀ first ∈ (none : Option (List Char)), '\x7d' ∉ first := nofun
    exact names_of_mem_piecesFrom hnone h
  · rintro ⟨before, after, rfl, hname, hbefore⟩
    have hcut : before.getLast? = some '$' → (slotChars name ++ after).head? ≠ some '\x7b' := by
      simp [slotChars, opening]
    rw [pieces_append hbefore hcut, pieces_slotChars hname]
    exact List.mem_append_right _ List.mem_cons_self

/-! ### Filling in -/

theorem fill_append (value : String → String) {first second : String}
    (hfirst : Complete first.toList)
    (hcut : first.toList.getLast? = some '$' → second.toList.head? ≠ some '\x7b') :
    fill value (first ++ second) = fill value first ++ fill value second := by
  rw [fill, fill, fill, String.toList_append, pieces_append hfirst hcut, List.map_append,
    String.join_append]

/-- A text with one placeholder and nothing else. -/
theorem fill_slotText (value : String → String) {name : String} (h : '\x7d' ∉ name.toList) :
    fill value (slotText name) = value name := by
  have hpieces : pieces (slotText name).toList = [.slot name.toList] := by
    have hslot := pieces_slotChars h []
    rw [List.append_nil] at hslot
    rw [toList_slotText, hslot]
    rfl
  rw [fill, hpieces]
  simp [Piece.fill]

/-- A text stays as it is if all its placeholders do. -/
theorem fill_eq_self {value : String → String} {text : String}
    (h : ∀ name, Names name text.toList →
      value (String.ofList name) = slotText (String.ofList name)) :
    fill value text = text := by
  have hpiece : ∀ piece ∈ pieces text.toList, (piece.fill value).toList = piece.chars := by
    intro piece hmem
    cases piece with
    | char c => simp [Piece.fill, Piece.chars]
    | slot name =>
      rw [Piece.fill, h name (slot_mem_pieces_iff.1 hmem), toList_slotText, String.toList_ofList]
      rfl
  rw [← String.toList_inj, fill, String.toList_join, List.flatMap_map, List.flatMap_def,
    List.map_congr_left hpiece, ← List.flatMap_def, flatMap_chars_pieces]

end EventRules.Text.Template

import EventRules.Proofs.Firing.Modest
import EventRules.Proofs.Grammar.Alike
import EventRules.Proofs.Grammar.Relocate
import EventRules.Proofs.Script.Prints
import EventRules.Proofs.Text.Upper

/-!
# `EventRules.Proofs.Grammar.Reread`: actions read from their text

An action is written as a text, and the text is read as the same action
again, lines aside (`Action.read_text`). Three things have to come out as
they were:

* Names and arguments: `Text.IsWord.upper` and `Token.Legible.prints`.
  They come from a script, so they are what the scanner makes of some
  text.
* Conditions: `Predicate.Conjunction.ofPrinted`. A predicate is written
  without quotes, so this is assumed of every predicate for itself, as
  `Predicate.Rereads`. Its text must also end outside a span and a
  comment, or else it takes in the words after it.
* Branches: `Reprints.ifThen` and `Reprints.ifThenElse`. A body has no
  `ELSE` when it is read, and none when it is written again.
-/

set_option autoImplicit false

namespace EventRules

open Text

/-! ### Words and keywords -/

/-- A mark in front of a text in upper case was there before. -/
theorem Text.exists_cons_of_upper {cs : List Char} {d : Char} {ds : List Char}
    (h : cs.flatMap upperChar = d :: ds) (hmark : isMark d) : ∃ rest, cs = d :: rest := by
  cases cs with
  | nil => cases h
  | cons c cs =>
    obtain ⟨e, es, hupper⟩ := List.exists_cons_of_ne_nil (upperChar_ne_nil c)
    rw [List.flatMap_cons, hupper] at h
    obtain ⟨rfl, -⟩ := List.cons.inj h
    have hmem : e ∈ upperChar c := hupper ▸ List.mem_cons_self
    rw [eq_of_mem_upperChar hmem hmark]
    exact ⟨cs, rfl⟩

/-- A word in upper case is a word. -/
theorem Text.IsWord.upper {word : String} (h : IsWord word.toList) :
    IsWord (Text.upper word).toList := by
  rw [toList_upper]
  generalize word.toList = cs at h ⊢
  refine ⟨⟨?_, ?_⟩, ?_, ?_⟩
  · intro d hd
    obtain ⟨c, hc, hmem⟩ := List.mem_flatMap.1 hd
    obtain ⟨hindent, hbreak, hpercent⟩ := isPlain_iff.1 (h.plain c hc)
    -- What is not plain is a mark, and upper case makes no marks.
    refine isPlain_iff.2 ⟨fun hd => ?_, fun hd => ?_, fun hd => ?_⟩
    · rw [eq_of_mem_upperChar hmem (by simp [isMark, isBlank_of_isIndent hd])] at hd
      exact hindent hd
    · rw [eq_of_mem_upperChar hmem (by simp [isMark, isBlank_of_isBreak hd])] at hd
      exact hbreak hd
    · rw [eq_of_mem_upperChar hmem (by simp [isMark, hd])] at hd
      exact hpercent hd
  · intro d rest heq hblank
    obtain ⟨cs', rfl⟩ := exists_cons_of_upper heq rfl
    have hrest : cs'.flatMap upperChar = d :: rest := (List.cons.inj heq).2
    obtain ⟨cs, rfl⟩ := exists_cons_of_upper hrest (by simp [isMark, hblank])
    exact h.hash d cs rfl hblank
  · intro hnil
    obtain ⟨c, cs', rfl⟩ := List.exists_cons_of_ne_nil h.ne_nil
    exact upperChar_ne_nil c (List.append_eq_nil_iff.1 hnil).1
  · intro heq
    obtain ⟨cs', rfl⟩ := exists_cons_of_upper heq rfl
    have hrest : cs'.flatMap upperChar = [] := (List.cons.inj heq).2
    cases cs' with
    | nil => exact h.ne_hash rfl
    | cons c cs => exact upperChar_ne_nil c (List.append_eq_nil_iff.1 hrest).1

namespace Token

/-- A keyword as it is usually written. -/
def ofKeyword (keyword : Keyword) : Token :=
  ⟨.word, keyword.text, 0⟩

theorem isKeyword_ofKeyword (keyword : Keyword) : (ofKeyword keyword).isKeyword keyword := by
  cases keyword <;> rfl

theorem prints_ofKeyword (keyword : Keyword) : Prints keyword.text [ofKeyword keyword] := by
  refine IsWord.prints ⟨⟨List.all_eq_true.1 ?_, ?_⟩, ?_, ?_⟩
  · cases keyword <;> rfl
  · intro c rest heq
    cases keyword <;> cases heq
  · cases keyword <;> exact List.cons_ne_nil _ _
  · cases keyword <;> decide

/-- A name in upper case that is not written as the keyword is not it. -/
theorem isKeyword_upper {name : String} {keyword : Keyword} (h : upper name ≠ keyword.text)
    (line : Nat) : isKeyword keyword ⟨.word, upper name, line⟩ = false := by
  rw [Bool.eq_false_iff]
  intro hkeyword
  have hequal : equalIgnoringCase (upper name) keyword.text := (Bool.and_eq_true_iff.1 hkeyword).2
  have hupper := upper_of_equalIgnoringCase (isCapitals_keyword keyword) hequal
  rw [upper_upper] at hupper
  exact h hupper

/-- A word or group of a script is read from its text as an argument. -/
theorem Legible.prints {token : Token} (h : token.Legible) (hline : token.isEmptyLine = false) :
    Prints (Action.argText token) [token.unplaced] := by
  obtain ⟨kind, text, line⟩ := token
  cases kind with
  | word => exact IsWord.prints h
  | group => exact prints_write h
  | emptyLine => cases hline

/-- A text and arguments after it. -/
theorem prints_args {text : String} {tokens args : List Token} (h : Prints text tokens)
    (hargs : ∀ token ∈ args, token.Legible ∧ token.isEmptyLine = false) :
    Prints (String.intercalate " " (text :: args.map Action.argText))
      (tokens ++ args.map unplaced) := by
  induction args generalizing text tokens with
  | nil =>
    rw [List.map_nil, List.map_nil, String.intercalate_singleton, List.append_nil]
    exact h
  | cons arg args ih =>
    rw [List.forall_mem_cons] at hargs
    rw [List.map_cons, String.intercalate_cons_cons]
    exact h.append (ih (hargs.1.1.prints hargs.1.2) hargs.2)

end Token

/-- To leave the lines out is to move all tokens to one. -/
theorem contentOf_eq_relocate (text : String) :
    contentOf text = (Token.content (tokenize text)).map (Token.relocate fun _ => 0) :=
  rfl

variable {φ α ε : Type}

/-! ### Conditions -/

namespace Predicate

/-- The predicate is read from its own text. No word of the text is a
keyword that stands around predicates. -/
structure Rereads (platform : Platform φ ε) (predicate : Predicate) : Prop where
  read_eq : read platform (tokenize predicate.text) = .ok predicate
  lacks_and : Token.Lacks .and (tokenize predicate.text)
  lacks_then : Token.Lacks .then (tokenize predicate.text)
  lacks_else : Token.Lacks .else (tokenize predicate.text)

instance (keyword : Keyword) (tokens : List Token) : Decidable (Token.Lacks keyword tokens) :=
  inferInstanceAs (Decidable (∀ token ∈ tokens, token.isKeyword keyword = false))

instance (platform : Platform φ ε) (predicate : Predicate) :
    Decidable (predicate.Rereads platform) :=
  decidable_of_iff
    (read platform (tokenize predicate.text) = .ok predicate
      ∧ Token.Lacks .and (tokenize predicate.text) ∧ Token.Lacks .then (tokenize predicate.text)
      ∧ Token.Lacks .else (tokenize predicate.text))
    ⟨fun ⟨hread, hand, hthen, helse⟩ => ⟨hread, hand, hthen, helse⟩,
      fun ⟨hread, hand, hthen, helse⟩ => ⟨hread, hand, hthen, helse⟩⟩

/-- The tokens of a condition that is written. -/
def printed : List Predicate → List Token
  | [] => []
  | [predicate] => contentOf predicate.text
  | predicate :: next :: rest =>
    contentOf predicate.text ++ Token.ofKeyword .and :: printed (next :: rest)

theorem prints_printed {predicate : Predicate} {rest : List Predicate}
    (hclosed : ∀ p ∈ predicate :: rest, Closed p.text) :
    Prints (Action.conditionText (predicate :: rest)) (printed (predicate :: rest)) := by
  induction rest generalizing predicate with
  | nil =>
    rw [Action.conditionText, List.map_singleton, String.intercalate_singleton]
    exact ⟨hclosed predicate List.mem_cons_self, rfl⟩
  | cons next rest ih =>
    rw [List.forall_mem_cons] at hclosed
    have hfirst : Prints predicate.text (contentOf predicate.text) := ⟨hclosed.1, rfl⟩
    have hall := (hfirst.append (Token.prints_ofKeyword .and)).append (ih hclosed.2)
    have htext : Action.conditionText (predicate :: next :: rest)
        = predicate.text ++ " " ++ Keyword.and.text ++ " "
          ++ Action.conditionText (next :: rest) := by
      have hand : " AND " = " " ++ Keyword.and.text ++ " " := rfl
      rw [Action.conditionText, List.map_cons, List.map_cons, String.intercalate_cons_cons]
      show predicate.text ++ " AND " ++ Action.conditionText (next :: rest) = _
      rw [hand]
      simp only [String.append_assoc]
    rw [htext, printed]
    rw [List.append_assoc] at hall
    exact hall

/-- The words and groups of a text lack what its tokens lack. -/
theorem lacks_contentOf {keyword : Keyword} {text : String}
    (h : Token.Lacks keyword (tokenize text)) : Token.Lacks keyword (contentOf text) := by
  intro token htoken
  obtain ⟨original, hmem, rfl⟩ := List.mem_map.1 htoken
  exact h original (List.mem_filter.1 hmem).1

theorem lacks_printed {keyword : Keyword} (hand : keyword ≠ .and) {predicates : List Predicate}
    (h : ∀ p ∈ predicates, Token.Lacks keyword (tokenize p.text)) :
    Token.Lacks keyword (printed predicates) := by
  induction predicates using printed.induct with
  | case1 => exact Token.lacks_nil keyword
  | case2 predicate => exact lacks_contentOf (h predicate List.mem_cons_self)
  | case3 predicate next rest ih =>
    rw [List.forall_mem_cons] at h
    rw [printed, Token.lacks_append, Token.lacks_cons]
    exact ⟨lacks_contentOf h.1,
      Token.isKeyword_of_ne (Token.isKeyword_ofKeyword .and) hand.symm, ih h.2⟩

/-- On a modest platform no sign of the text may be lost, so none opens a
span or a comment that is open at the end. -/
theorem Rereads.closed {platform : Platform φ ε} (hmodest : platform.Modest)
    {predicate : Predicate} (h : predicate.Rereads platform) : Closed predicate.text := by
  refine place_of_signs_le ?_
  have hread := signs_text_le hmodest h.read_eq
  have hcontent := Token.signs_content_le (tokenize predicate.text)
  exact Nat.le_trans hread hcontent

/-- A predicate is read from the words and groups of its text. -/
theorem Rereads.ofTokens_contentOf {platform : Platform φ ε} {predicate : Predicate}
    (h : predicate.Rereads platform) :
    ofTokens platform (contentOf predicate.text) = .ok predicate := by
  rw [contentOf_eq_relocate, ofTokens_relocate]
  exact h.read_eq

/-- A condition is read from what is written of its predicates. -/
theorem Conjunction.ofPrinted {platform : Platform φ ε} {predicate : Predicate}
    {rest : List Predicate} (h : ∀ p ∈ predicate :: rest, p.Rereads platform) :
    Conjunction platform (printed (predicate :: rest)) (predicate :: rest) := by
  induction rest generalizing predicate with
  | nil =>
    have hpredicate := h predicate List.mem_cons_self
    exact .last (lacks_contentOf hpredicate.lacks_and) hpredicate.ofTokens_contentOf
  | cons next rest ih =>
    rw [List.forall_mem_cons] at h
    exact .more (lacks_contentOf h.1.lacks_and) h.1.ofTokens_contentOf
      (Token.isKeyword_ofKeyword .and) (ih h.2)

/-- No condition is made of nothing. -/
theorem Conjunction.ne_nil {platform : Platform φ ε} {tokens : List Token}
    {predicates : List Predicate} (h : Conjunction platform tokens predicates) :
    tokens ≠ [] := by
  cases h with
  | last _ hpart =>
    rintro rfl
    have herror : ofTokens platform [] = .error (.of (.noPredicate "")) := rfl
    rw [herror] at hpart
    cases hpart
  | more => exact List.append_ne_nil_of_right_ne_nil _ (List.cons_ne_nil _ _)

/-- What is written of a condition, and how it is read. -/
structure Reprints (platform : Platform φ ε) (condition : List Predicate)
    (printed : List Token) : Prop where
  prints : Prints (Action.conditionText condition) printed
  derives : Conjunction platform printed condition
  lacks_then : Token.Lacks .then printed
  lacks_else : Token.Lacks .else printed

/-- A condition that was read is written so that it is read again, if
each of its predicates is. -/
theorem Conjunction.reprints {platform : Platform φ ε} {tokens : List Token}
    {condition : List Predicate} (h : Conjunction platform tokens condition)
    (hrereads : ∀ p ∈ condition, p.Rereads platform)
    (hclosed : ∀ p ∈ condition, Closed p.text) :
    Reprints platform condition (printed condition) := by
  -- There is a first predicate.
  have hcons : ∃ predicate rest, condition = predicate :: rest := by
    cases h <;> exact ⟨_, _, rfl⟩
  obtain ⟨predicate, rest, rfl⟩ := hcons
  exact {
    prints := prints_printed hclosed
    derives := .ofPrinted hrereads
    lacks_then := lacks_printed (by decide) fun p hp => (hrereads p hp).lacks_then
    lacks_else := lacks_printed (by decide) fun p hp => (hrereads p hp).lacks_else }

end Predicate

/-! ### Actions -/

namespace Action

/-- The predicates of all conditions in the action. -/
def predicates : Action α → List Predicate
  | leaf _ _ _ => []
  | ifThen condition body => condition ++ body.predicates
  | ifThenElse condition body otherwise => condition ++ body.predicates ++ otherwise.predicates

/-- The names at the leaves of the action. -/
def leafNames : Action α → List String
  | leaf name _ _ => [name]
  | ifThen _ body => body.leafNames
  | ifThenElse _ body otherwise => body.leafNames ++ otherwise.leafNames

/-- The action with its words on no line in particular. -/
def unplaced (action : Action α) : Action α :=
  action.relocate fun _ => 0

/-- What is assumed of an action that is written. -/
structure Rereadable (platform : Platform φ ε) (action : Action α) : Prop where
  name_ne : ∀ name ∈ action.leafNames, name ≠ Keyword.if.text ∧ name ≠ Keyword.else.text
  rereads : ∀ p ∈ action.predicates, p.Rereads platform
  closed : ∀ p ∈ action.predicates, Closed p.text

namespace Rereadable

variable {platform : Platform φ ε} {condition : List Predicate} {body otherwise : Action α}

theorem body_ifThen (h : (ifThen condition body).Rereadable platform) :
    body.Rereadable platform :=
  ⟨h.name_ne, fun p hp => h.rereads p (List.mem_append_right _ hp),
    fun p hp => h.closed p (List.mem_append_right _ hp)⟩

/-- A conditional with two branches is one with each branch alone. -/
theorem ifThen_body (h : (ifThenElse condition body otherwise).Rereadable platform) :
    (ifThen condition body).Rereadable platform :=
  ⟨fun name hname => h.name_ne name (List.mem_append_left _ hname),
    fun p hp => h.rereads p (List.mem_append_left _ hp),
    fun p hp => h.closed p (List.mem_append_left _ hp)⟩

theorem otherwise_ifThenElse (h : (ifThenElse condition body otherwise).Rereadable platform) :
    otherwise.Rereadable platform :=
  ⟨fun name hname => h.name_ne name (List.mem_append_right _ hname),
    fun p hp => h.rereads p (List.mem_append_right _ hp),
    fun p hp => h.closed p (List.mem_append_right _ hp)⟩

/-- The condition is written so that it is read again. -/
theorem condition_ifThen (h : (ifThen condition body).Rereadable platform) {tokens : List Token}
    (hread : Predicate.listOfTokens platform tokens = .ok condition) :
    Predicate.Reprints platform condition (Predicate.printed condition) :=
  (Predicate.listOfTokens_eq_ok_iff.1 hread).reprints
    (fun p hp => h.rereads p (List.mem_append_left _ hp))
    (fun p hp => h.closed p (List.mem_append_left _ hp))

end Rereadable

variable [Host φ α ε]

/-- What is written of an action that was read from the tokens, and how it
is read. -/
structure Reprints (platform : Platform φ ε) (tokens : List Token) (action : Action α)
    (printed : List Token) : Prop where
  prints : Prints action.text printed
  derives : Derives platform printed action.unplaced
  lacks_else : Token.Lacks .else tokens → Token.Lacks .else printed

namespace Reprints

variable {platform : Platform φ ε}

/-- A leaf is its name in upper case and its arguments. -/
theorem leaf {name : Token} {args : List Token} {factory : φ} {plugin : α}
    (hname : IsWord name.text.toList)
    (hargs : ∀ token ∈ args, token.Legible ∧ token.isEmptyLine = false)
    (hif : upper name.text ≠ Keyword.if.text) (helse : upper name.text ≠ Keyword.else.text)
    (hfactory : platform.action? name.text = some factory)
    (hbuild : Host.build factory platform (Token.texts args) = .ok plugin) :
    Reprints platform (name :: args) (.leaf (upper name.text) args plugin)
      (⟨.word, upper name.text, 0⟩ :: args.map Token.unplaced) := by
  refine ⟨Token.prints_args hname.upper.prints hargs, ?_, ?_⟩
  · have hfactory' : platform.action? (upper name.text) = some factory := by
      rw [Platform.action?, upper_upper]
      exact hfactory
    have hbuild' : Host.build factory platform
        (Token.texts (args.map (Token.relocate fun _ => 0))) = .ok plugin := by
      rw [Token.texts_relocate, hbuild]
    have hword : Token.isKeyword .if ⟨.word, upper name.text, 0⟩ = false :=
      Token.isKeyword_upper hif 0
    have hderives := Derives.leaf hword hfactory' hbuild'
    rw [upper_upper] at hderives
    exact hderives
  · intro hlacks
    rw [Token.lacks_cons] at hlacks ⊢
    refine ⟨Token.isKeyword_upper helse 0, ?_⟩
    intro token htoken
    obtain ⟨arg, harg, rfl⟩ := List.mem_map.1 htoken
    exact hlacks.2 arg harg

/-- The tokens of `IF`, a condition, `THEN` and a body. -/
theorem prints_ifThen {condition : List Predicate} {first rest : List Token} {body : Action α}
    (h : Prints (conditionText condition) first) (hbody : Prints body.text rest) :
    Prints (Action.ifThen condition body).text
      (Token.ofKeyword .if :: (first ++ Token.ofKeyword .then :: rest)) := by
  have hall := (((Token.prints_ofKeyword .if).append h).append
    (Token.prints_ofKeyword .then)).append hbody
  have htext : (Action.ifThen condition body).text
      = Keyword.if.text ++ " " ++ conditionText condition ++ " " ++ Keyword.then.text ++ " "
        ++ body.text := by
    have hif : "IF " = Keyword.if.text ++ " " := rfl
    have hthen : " THEN " = " " ++ Keyword.then.text ++ " " := rfl
    rw [Action.text, hif, hthen]
    simp only [String.append_assoc]
  rw [htext]
  simp only [List.append_assoc] at hall
  exact hall

/-- The body has no `ELSE` when it is read, so there is none in what is
written. -/
theorem ifThen {whole tokens first rest : List Token} {condition : List Predicate}
    {body : Action α} (hcondition : Predicate.Reprints platform condition first)
    (hbody : Reprints platform tokens body rest) (hlacks : Token.Lacks .else tokens) :
    Reprints platform whole (.ifThen condition body)
      (Token.ofKeyword .if :: (first ++ Token.ofKeyword .then :: rest)) := by
  refine ⟨prints_ifThen hcondition.prints hbody.prints, ?_, ?_⟩
  · exact .ifThen (Token.isKeyword_ofKeyword .if) (Token.isKeyword_ofKeyword .then)
      hcondition.derives.ne_nil hbody.derives.ne_nil hcondition.lacks_then hcondition.lacks_else
      (hbody.lacks_else hlacks) hcondition.derives hbody.derives
  · intro _
    rw [Token.lacks_cons, Token.lacks_append, Token.lacks_cons]
    exact ⟨rfl, hcondition.lacks_else, rfl, hbody.lacks_else hlacks⟩

/-- The tokens of a conditional with `ELSE` and another action. -/
theorem prints_ifThenElse {condition : List Predicate} {first : List Token}
    {body otherwise : Action α} {rest last : List Token}
    (h : Prints (conditionText condition) first) (hbody : Prints body.text rest)
    (hother : Prints otherwise.text last) :
    Prints (Action.ifThenElse condition body otherwise).text
      (Token.ofKeyword .if :: (first ++ Token.ofKeyword .then :: rest
        ++ Token.ofKeyword .else :: last)) := by
  have hall := ((prints_ifThen h hbody).append (Token.prints_ofKeyword .else)).append hother
  have htext : (Action.ifThenElse condition body otherwise).text
      = (Action.ifThen condition body).text ++ " " ++ Keyword.else.text ++ " "
        ++ otherwise.text := by
    have helse : " ELSE " = " " ++ Keyword.else.text ++ " " := rfl
    rw [Action.text, Action.text, helse]
    simp only [String.append_assoc]
  rw [htext]
  rw [List.append_assoc] at hall
  exact hall

theorem ifThenElse {whole tokens others first rest last : List Token}
    {condition : List Predicate} {body otherwise : Action α}
    (hcondition : Predicate.Reprints platform condition first)
    (hbody : Reprints platform tokens body rest) (hlacks : Token.Lacks .else tokens)
    (hother : Reprints platform others otherwise last) (hwhole : ¬ Token.Lacks .else whole) :
    Reprints platform whole (.ifThenElse condition body otherwise)
      (Token.ofKeyword .if :: (first ++ Token.ofKeyword .then :: rest
        ++ Token.ofKeyword .else :: last)) := by
  refine ⟨prints_ifThenElse hcondition.prints hbody.prints hother.prints, ?_, ?_⟩
  · exact .ifThenElse (Token.isKeyword_ofKeyword .if) (Token.isKeyword_ofKeyword .then)
      (Token.isKeyword_ofKeyword .else) hcondition.derives.ne_nil hbody.derives.ne_nil
      hcondition.lacks_then hcondition.lacks_else (hbody.lacks_else hlacks) hcondition.derives
      hbody.derives hother.derives
  · exact fun hlacks => absurd hlacks hwhole

end Reprints

/-- An action that was read from words and groups of a script is written
so that it is read again. -/
theorem exists_reprints {platform : Platform φ ε} {tokens : List Token} {action : Action α}
    (hread : ofTokens platform tokens = .ok action) (hbare : BareNames tokens)
    (htokens : ∀ token ∈ tokens, token.Legible ∧ token.isEmptyLine = false)
    (h : action.Rereadable platform) : ∃ printed, Reprints platform tokens action printed := by
  induction hbare generalizing action with
  | nil =>
    rw [ofTokens] at hread
    cases hread
  | @leaf name args hif hkind =>
    rw [ofTokens_leaf platform hif] at hread
    obtain ⟨factory, plugin, hfactory, hbuild, rfl⟩ := leafOfTokens_eq_ok_iff.1 hread
    rw [List.forall_mem_cons] at htokens
    have hname : IsWord name.text.toList := by
      have hlegible := htokens.1.1
      rw [Token.Legible, hkind] at hlegible
      exact hlegible
    obtain ⟨hif', helse⟩ := h.name_ne (upper name.text) List.mem_cons_self
    exact ⟨_, .leaf hname htokens.2 hif' helse hfactory hbuild⟩
  | malformed hif hclauses =>
    rw [ofTokens_error platform hif hclauses] at hread
    cases hread
  | ifThen hif hclauses _ ih =>
    rw [ofTokens_ifThen platform hif hclauses] at hread
    obtain ⟨condition, hcondition, hread⟩ := bind_eq_ok_iff.1 hread
    obtain ⟨inner, hinner, hread⟩ := bind_eq_ok_iff.1 hread
    cases hread
    obtain ⟨word, hdivides⟩ := Clauses.ofTokens_ifThen_iff.1 hclauses
    obtain rfl := hdivides.tokens_eq
    simp only [List.forall_mem_cons, List.forall_mem_append] at htokens
    obtain ⟨printed, hprinted⟩ := ih hinner htokens.2.2.2 h.body_ifThen
    exact ⟨_, .ifThen (h.condition_ifThen hcondition) hprinted hdivides.body_else⟩
  | ifThenElse hif hclauses _ _ ihBody ihOther =>
    rw [ofTokens_ifThenElse platform hif hclauses] at hread
    obtain ⟨condition, hcondition, hread⟩ := bind_eq_ok_iff.1 hread
    obtain ⟨inner, hinner, hread⟩ := bind_eq_ok_iff.1 hread
    obtain ⟨other, hother, hread⟩ := bind_eq_ok_iff.1 hread
    cases hread
    obtain ⟨first, word, elseWord, rfl, helse, -, hdivides⟩ :=
      Clauses.ofTokens_ifThenElse_iff.1 hclauses
    obtain rfl := hdivides.tokens_eq
    simp only [List.forall_mem_cons, List.forall_mem_append] at htokens
    obtain ⟨printed, hprinted⟩ := ihBody hinner htokens.2.1.2.2 h.ifThen_body.body_ifThen
    obtain ⟨printed', hprinted'⟩ := ihOther hother htokens.2.2.2 h.otherwise_ifThenElse
    refine ⟨_, .ifThenElse (h.ifThen_body.condition_ifThen hcondition) hprinted
      hdivides.body_else hprinted' ?_⟩
    -- The tokens have the `ELSE` between the branches.
    intro hlacks
    rw [hlacks elseWord (by simp)] at helse
    cases helse

/-- An action that was read is read again from its text, and is the same
action, lines aside. Its leaves have bare words for names, which are not
`IF` or `ELSE` in upper case, and each of its predicates is read again
from its own text. On a platform that is not modest no such text may end
in a span or a comment. -/
theorem read_text {platform : Platform φ ε} {script : String} {action : Action α}
    (hread : read platform (tokenize script) = .ok action)
    (hbare : BareNames (Token.content (tokenize script)))
    (hnames : ∀ name ∈ action.leafNames, name ≠ Keyword.if.text ∧ name ≠ Keyword.else.text)
    (hrereads : ∀ p ∈ action.predicates, p.Rereads platform)
    (hclosed : platform.Modest ∨ ∀ p ∈ action.predicates, Closed p.text) :
    ∃ again, read platform (tokenize action.text) = .ok again
      ∧ again.unplaced = action.unplaced := by
  have hrereadable : action.Rereadable platform := by
    refine ⟨hnames, hrereads, ?_⟩
    rcases hclosed with hmodest | hclosed
    · exact fun p hp => (hrereads p hp).closed hmodest
    · exact hclosed
  have htokens : ∀ token ∈ Token.content (tokenize script),
      token.Legible ∧ token.isEmptyLine = false := by
    intro token htoken
    obtain ⟨hmem, hline⟩ := List.mem_filter.1 htoken
    exact ⟨tokenize_legible script token hmem, by simpa using hline⟩
  obtain ⟨printed, hprinted⟩ := exists_reprints hread hbare htokens hrereadable
  have hplaced := ofTokens_of_derives hprinted.derives
  rw [← hprinted.prints.content_eq] at hplaced
  rw [contentOf_eq_relocate, ofTokens_relocate] at hplaced
  exact map_eq_ok_iff.1 hplaced

/-- Two branches, with a percent sign in a group and a word that begins
with a number sign. -/
theorem read_text_branches :
    ∃ action : Action (List String),
      read Echo.platform (tokenize "if f IS a AND g IS b\nthen echo %50\\% off% else Echo #1 then")
          = .ok action
        ∧ BareNames (Token.content
          (tokenize "if f IS a AND g IS b\nthen echo %50\\% off% else Echo #1 then"))
        ∧ (∀ name ∈ action.leafNames, name ≠ Keyword.if.text ∧ name ≠ Keyword.else.text)
        ∧ (∀ p ∈ action.predicates, p.Rereads Echo.platform)
        ∧ action.text = "IF f IS a AND g IS b THEN ECHO %50\\% off% ELSE ECHO #1 then"
        ∧ ∃ again, read Echo.platform (tokenize action.text) = .ok again
          ∧ again.unplaced = action.unplaced := by
  let action : Action (List String) :=
    .ifThenElse [⟨"f", .is "a"⟩, ⟨"g", .is "b"⟩]
      (.leaf "ECHO" [⟨.group, "50% off", 2⟩] ["50% off"])
      (.leaf "ECHO" [⟨.word, "#1", 2⟩, ⟨.word, "then", 2⟩] ["#1", "then"])
  have hread : read Echo.platform
      (tokenize "if f IS a AND g IS b\nthen echo %50\\% off% else Echo #1 then") = .ok action := by
    decide +kernel
  have htokens : Token.content
      (tokenize "if f IS a AND g IS b\nthen echo %50\\% off% else Echo #1 then")
        = ⟨.word, "if", 1⟩ :: ["f", "IS", "a", "AND", "g", "IS", "b"].map (⟨.word, ·, 1⟩)
          ++ [⟨.word, "then", 2⟩, ⟨.word, "echo", 2⟩, ⟨.group, "50% off", 2⟩,
            ⟨.word, "else", 2⟩, ⟨.word, "Echo", 2⟩, ⟨.word, "#1", 2⟩, ⟨.word, "then", 2⟩] := by
    decide +kernel
  have hbare : BareNames (Token.content
      (tokenize "if f IS a AND g IS b\nthen echo %50\\% off% else Echo #1 then")) := by
    rw [htokens]
    exact .ifThenElse rfl rfl (.leaf rfl rfl) (.leaf rfl rfl)
  have hnames : ∀ name ∈ action.leafNames,
      name ≠ Keyword.if.text ∧ name ≠ Keyword.else.text := by
    decide +kernel
  have hrereads : ∀ p ∈ action.predicates, p.Rereads Echo.platform := by
    decide +kernel
  exact ⟨action, hread, hbare, hnames, hrereads, by decide +kernel,
    read_text hread hbare hnames hrereads (.inl Echo.modest)⟩

end Action

/-- A platform whose comparator is the same whatever the text. -/
def Echo.deaf : Platform Echo Empty :=
  .ofRegistrations "Echo" [.action "ECHO" .echo, .comparator "IS" fun _ => .ok (.is "a%")]

namespace Action

/-- A predicate that is read again from its own text, where the span that
it opens holds nothing. In the text of the action the span takes in
everything up to the end, `THEN` included. -/
theorem read_text_open_span :
    ∃ action : Action (List String),
      read Echo.deaf (tokenize "IF f IS a THEN ECHO x") = .ok action
        ∧ BareNames (Token.content (tokenize "IF f IS a THEN ECHO x"))
        ∧ (∀ name ∈ action.leafNames,
          name ≠ Keyword.if.text ∧ name ≠ Keyword.then.text ∧ name ≠ Keyword.else.text)
        ∧ (∀ p ∈ action.predicates, p.Rereads Echo.deaf)
        ∧ action.text = "IF f IS a% THEN ECHO x"
        ∧ (read Echo.deaf (tokenize action.text) : Except SyntaxError (Action (List String)))
          = .error (.of .noThen) := by
  let action : Action (List String) :=
    .ifThen [⟨"f", .is "a%"⟩] (.leaf "ECHO" [⟨.word, "x", 1⟩] ["x"])
  have htokens : Token.content (tokenize "IF f IS a THEN ECHO x")
      = ["IF", "f", "IS", "a", "THEN", "ECHO", "x"].map (⟨.word, ·, 1⟩) := by
    decide +kernel
  have hbare : BareNames (Token.content (tokenize "IF f IS a THEN ECHO x")) := by
    rw [htokens]
    exact .ifThen rfl rfl (.leaf rfl rfl)
  exact ⟨action, by decide +kernel, hbare, by decide +kernel, by decide +kernel,
    by decide +kernel, by decide +kernel⟩

end Action

end EventRules

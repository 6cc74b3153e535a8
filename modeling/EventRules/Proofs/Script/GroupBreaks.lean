import EventRules.Proofs.Firing.Echo
import EventRules.Proofs.Grammar.Alike
import EventRules.Proofs.Script.Flatten

/-!
# `EventRules.Proofs.Script.GroupBreaks`: line breaks inside spans

The text of a span may go over several lines. A token stands on the line
it starts on, and what follows the span stands on the line where the
span ends. So a line break inside a span moves the tokens after it, and
with them the place where a block is divided into action and last line.

A block is `Block.Settled` when no group ends on its last line that
begins before it. Then the division stays where it is when all groups
are flat, and otherwise it moves to the front:

* `Drift.divide`: what the flattened block has on its last line more
  than the block. It is nothing exactly for settled blocks.
* `Ruleset.ofScript_flattenGroups`: settled scripts and the flattened
  ones are rulesets together, with the same rules up to texts and lines.
  Where both are rulesets, the rules agree only if the script is settled.
* `Ruleset.ofScript_flattenGroups_unsettled`: a script that is none, and
  a ruleset once it is flat.
-/

set_option autoImplicit false

namespace EventRules

open Text (flat)

/-! ### Blocks of flattened scripts -/

/-- Every group that ends on the last line of the block begins there. -/
def Block.Settled (block : List Token) : Prop :=
  ∀ token ∈ block, token.lastLine = (ofTokens block).line → token.line = (ofTokens block).line

instance (block : List Token) : Decidable (Block.Settled block) :=
  inferInstanceAs (Decidable (∀ token ∈ block,
    token.lastLine = (Block.ofTokens block).line → token.line = (Block.ofTokens block).line))

theorem Token.Flattened.alike {token other : Token} (h : token.Flattened other) :
    token.Alike other := by
  refine ⟨h.kind_eq, h.text_eq, ?_⟩
  by_cases hkind : token.kind = .emptyLine
  · rw [h.text_eq (by simp [hkind])]
  · rw [h.flat_eq hkind, Text.flat_flat]

namespace Drift

variable {drift : Nat} {tokens others : List Token}

theorem flattened (h : Drift drift tokens others) :
    List.Forall₂ Token.Flattened tokens others := by
  induction h with
  | nil => exact .nil
  | cons hhead _ _ ih => exact .cons hhead ih

theorem exists_append {first second : List Token} (h : Drift drift (first ++ second) others) :
    ∃ later first' second', others = first' ++ second' ∧ Drift drift first first'
      ∧ Drift later second second' := by
  induction first generalizing drift others with
  | nil => exact ⟨drift, [], others, rfl, .nil, h⟩
  | cons token rest ih =>
    cases h with
    | cons hhead hline hrest =>
      obtain ⟨later, first', second', rfl, hfirst, hsecond⟩ := ih hrest
      exact ⟨later, _ :: first', second', rfl, .cons hhead hline hfirst, hsecond⟩

theorem solid (h : Drift drift tokens others) (hsolid : Block.Solid tokens) :
    Block.Solid others := by
  induction h with
  | nil => exact hsolid
  | cons hhead _ _ ih =>
    rw [Block.Solid, List.forall_mem_cons] at hsolid ⊢
    refine ⟨?_, ih hsolid.2⟩
    rw [Token.isEmptyLine, hhead.kind_eq]
    exact hsolid.1

/-- There are no line breaks in the words and groups of the second
list. -/
theorem flat_text (h : Drift drift tokens others) (hsolid : Block.Solid tokens) :
    ∀ other ∈ others, flat other.text = other.text := by
  induction h with
  | nil =>
    intro other hother
    cases hother
  | cons hhead _ _ ih =>
    rw [Block.Solid, List.forall_mem_cons] at hsolid
    rw [List.forall_mem_cons]
    refine ⟨?_, ih hsolid.2⟩
    have hkind : _ ≠ TokenKind.emptyLine := of_decide_eq_false hsolid.1
    rw [hhead.flat_eq hkind, Text.flat_flat]

/-- The blocks of the two scripts, one by one. -/
theorem split (h : Drift drift tokens others) :
    List.Forall₂ (fun block other => ∃ drift, Drift drift block other)
      (Block.split tokens) (Block.split others) := by
  induction tokens using Block.split_induction generalizing drift others with
  | last part hsolid =>
    rw [Block.split_of_solid hsolid, Block.split_of_solid (h.solid hsolid)]
    cases h with
    | nil => exact .nil
    | cons hhead hline hrest => exact .cons ⟨drift, .cons hhead hline hrest⟩ .nil
  | more part blank rest hsolid hblank ih =>
    obtain ⟨later, part', rest', rfl, hpart, hrest⟩ := h.exists_append
    cases hrest with
    | @cons _ _ blank' _ rest' hhead hline hrest =>
      have hblank' : blank'.isEmptyLine := by
        rw [Token.isEmptyLine, hhead.kind_eq]
        exact hblank
      rw [Block.split_append hblank, Block.split_append hblank',
        Block.split_of_solid hsolid, Block.split_of_solid (hpart.solid hsolid)]
      cases hpart with
      | nil => exact ih hrest
      | cons hfirst hline' hothers =>
        exact .cons ⟨drift, .cons hfirst hline' hothers⟩ (ih hrest)

/-! ### The last line -/

/-- The distance at the end of a block is at least the one at its
start. -/
theorem line_le_getLast {last last' : Token} (h : Drift drift tokens others)
    (hlast : tokens.getLast? = some last) (hlast' : others.getLast? = some last') :
    last'.line + drift ≤ last.line := by
  induction h with
  | nil => cases hlast
  | cons _ hline hrest ih =>
    -- Groups on the way only add to the distance.
    cases hrest with
    | nil =>
      cases hlast
      cases hlast'
      exact Nat.le_of_eq hline.symm
    | cons =>
      rw [List.getLast?_cons_cons] at hlast hlast'
      have hle := ih hlast hlast'
      omega

/-- What is on the last line of a block stays on the last line. -/
theorem line_eq_last {last last' : Token} (h : Drift drift tokens others)
    (hle : ∀ other ∈ others, other.line ≤ last'.line)
    (hlast : tokens.getLast? = some last) (hlast' : others.getLast? = some last') :
    List.Forall₂ (fun token other => token.line = last.line → other.line = last'.line)
      tokens others := by
  induction h with
  | nil => exact .nil
  | @cons drift token other tokens others hhead hline hrest ih =>
    have hdrift : last'.line + drift ≤ last.line :=
      (Drift.cons hhead hline hrest).line_le_getLast hlast hlast'
    rw [List.forall_mem_cons] at hle
    refine .cons ?_ ?_
    · -- It can stand no higher than the last one, nor lower.
      intro heq
      have hother := hle.1
      omega
    · cases hrest with
      | nil => exact .nil
      | cons =>
        rw [List.getLast?_cons_cons] at hlast hlast'
        exact ih hle.2 hlast hlast'

/-- What comes onto the last line is a group that ends there, or follows
one. -/
theorem settled_iff {last last' : Token} (h : Drift drift tokens others)
    (hsorted : others.Pairwise (·.line ≤ ·.line)) (hle : ∀ other ∈ others, other.line ≤ last'.line)
    (hlast : tokens.getLast? = some last) (hlast' : others.getLast? = some last') :
    (∀ token ∈ tokens, token.lastLine = last.line → token.line = last.line)
      ↔ List.Forall₂ (fun token other => other.line = last'.line → token.line = last.line)
        tokens others := by
  induction h with
  | nil => cases hlast
  | @cons drift token other tokens others hhead hline hrest ih =>
    cases hrest with
    | nil =>
      -- The last token itself is on the last line in both lists.
      cases hlast
      cases hlast'
      simp
    | @cons _ next next' rest rest' hnext hline' hrest' =>
      have htail : Drift (drift + token.lineFeeds) (next :: rest) (next' :: rest') :=
        .cons hnext hline' hrest'
      rw [List.getLast?_cons_cons] at hlast hlast'
      rw [List.pairwise_cons] at hsorted
      rw [List.forall_mem_cons] at hle
      have hdrift := htail.line_le_getLast hlast hlast'
      have hother : other.line ≤ next'.line := hsorted.1 next' List.mem_cons_self
      have hnext' : next'.line ≤ last'.line := hle.2 next' List.mem_cons_self
      rw [List.forall_mem_cons, List.forall₂_cons, ih hsorted.2 hle.2 hlast hlast']
      constructor
      · rintro ⟨hsettled, hall⟩
        refine ⟨?_, hall⟩
        intro heq
        -- The next token is on the last line too, where the group ends.
        have hline_next : next.line = last.line :=
          (List.forall₂_cons.1 hall).1 (by omega)
        refine hsettled ?_
        show token.line + token.lineFeeds = last.line
        omega
      · rintro ⟨hkept, hall⟩
        refine ⟨?_, hall⟩
        -- Where the token ends on the last line, its line feeds are all
        -- that keeps it from standing there, and the other has none.
        intro hends
        rw [Token.lastLine] at hends
        exact hkept (by omega)

end Drift

/-! ### The division of a block -/

/-- Two lists that go together, of which the second is divided no later
than the first. It is divided in the same place when no element after
the division goes with one before it. -/
theorem divide_forall₂ {β γ : Type} {R : β → γ → Prop} {p : β → Bool} {q : γ → Bool}
    {xs : List β} {ys : List γ} (h : List.Forall₂ R xs ys)
    (hq : List.Forall₂ (fun x y => q y → p x) xs ys)
    (hdrop : ∀ x ∈ xs.dropWhile p, p x = false) :
    ∃ kept extra, xs.takeWhile p = kept ++ extra ∧ List.Forall₂ R kept (ys.takeWhile q)
      ∧ List.Forall₂ R (extra ++ xs.dropWhile p) (ys.dropWhile q)
      ∧ (extra = [] ↔ List.Forall₂ (fun x y => p x → q y) xs ys) := by
  induction h with
  | nil => exact ⟨[], [], rfl, .nil, .nil, fun _ => .nil, fun _ => rfl⟩
  | @cons x y xs ys hhead hrest ih =>
    rw [List.forall₂_cons] at hq
    by_cases hy : q y
    · -- Both go on, and so does the division of the rest.
      have hx : p x := hq.1 hy
      rw [List.dropWhile_cons_of_pos hx] at hdrop ⊢
      rw [List.takeWhile_cons_of_pos hx, List.takeWhile_cons_of_pos hy,
        List.dropWhile_cons_of_pos hy]
      obtain ⟨kept, extra, htake, hkept, hextra, hiff⟩ := ih hq.2 hdrop
      refine ⟨x :: kept, extra, ?_, .cons hhead hkept, hextra, ?_⟩
      · rw [htake]
        rfl
      · rw [List.forall₂_cons, hiff]
        exact ⟨fun hall => ⟨fun _ => hy, hall⟩, fun hall => hall.2⟩
    · -- The second list is divided here. What the first one goes on with
      -- is extra.
      rw [List.takeWhile_cons_of_neg hy, List.dropWhile_cons_of_neg hy]
      refine ⟨[], (x :: xs).takeWhile p, rfl, .nil, ?_, ?_⟩
      · rw [List.takeWhile_append_dropWhile]
        exact .cons hhead hrest
      · by_cases hx : p x
        · rw [List.takeWhile_cons_of_pos hx, List.forall₂_cons]
          constructor
          · intro hnil
            cases hnil
          · rintro ⟨hboth, -⟩
            exact absurd (hboth hx) hy
        · rw [List.takeWhile_cons_of_neg hx]
          rw [List.dropWhile_cons_of_neg hx] at hdrop
          refine ⟨fun _ => ?_, fun _ => rfl⟩
          -- Nothing after the division of the first list is before it.
          have hlength := (List.Forall₂.cons hhead hrest).length_eq
          refine List.forall₂_iff_zip.2 ⟨hlength, ?_⟩
          intro x' y' hmem hx'
          rw [hdrop x' (List.of_mem_zip hmem).1] at hx'
          cases hx'

/-- The last line of a flattened block is that of the block, with the
end of the action in front of it. There is nothing in front exactly if
the block is settled. -/
theorem Drift.divide {drift : Nat} {block other : List Token} (h : Drift drift block other)
    (hne : block ≠ []) (hsorted : block.Pairwise (·.line ≤ ·.line))
    (hsorted' : other.Pairwise (·.line ≤ ·.line)) :
    ∃ kept extra, (Block.ofTokens block).action = kept ++ extra
      ∧ List.Forall₂ Token.Flattened kept (Block.ofTokens other).action
      ∧ List.Forall₂ Token.Flattened (extra ++ (Block.ofTokens block).onLine)
        (Block.ofTokens other).onLine
      ∧ (extra = [] ↔ Block.Settled block) := by
  have hne' : other ≠ [] := by
    rintro rfl
    exact hne (List.forall₂_nil_right_iff.1 h.flattened)
  have hlast : block.getLast? = some (block.getLast hne) := List.getLast?_eq_some_getLast hne
  have hlast' : other.getLast? = some (other.getLast hne') := List.getLast?_eq_some_getLast hne'
  have hle' := Block.line_le_of_mem hsorted' hlast'
  have hsame := h.line_eq_last hle' hlast hlast'
  have hdrop := Block.line_of_mem_dropWhile hsorted (Block.line_le_of_mem hsorted hlast)
  rw [Block.Settled, Block.ofTokens_of_getLast? hlast, Block.ofTokens_of_getLast? hlast',
    h.settled_iff hsorted' hle' hlast hlast']
  -- `takeWhile` and `dropWhile` ask for tokens that are not on the last
  -- line, so the facts about those that are come in contraposed.
  obtain ⟨kept, extra, haction, hkept, hextra, hiff⟩ :=
    divide_forall₂ (p := fun token => decide (token.line ≠ (block.getLast hne).line))
      (q := fun token => decide (token.line ≠ (other.getLast hne').line)) h.flattened
      (hsame.imp fun token found hboth => by simpa using mt hboth)
      (fun token htoken => by simpa using hdrop token htoken)
  refine ⟨kept, extra, haction, hkept, hextra, hiff.trans ?_⟩
  constructor
  · intro hall
    exact hall.imp fun token found hboth => by simpa [not_imp_not] using hboth
  · intro hall
    exact hall.imp fun token found hboth => by simpa [not_imp_not] using hboth

/-! ### Rules -/

variable {φ α ε : Type} [Host φ α ε]

/-- The second rule is the first one when groups are flat, up to texts
of words and literals, plugins and lines. -/
structure Rule.Flattened (rule other : Rule α) : Prop where
  event_eq : other.event = flat rule.event
  predicates_eq : other.predicates.length = rule.predicates.length
  outline_eq : other.action.outline = rule.action.outline

/-- What a block has to do with the flattened one. -/
structure Rule.Paired (platform : Platform φ ε) (block other : List Token) : Prop where
  /-- If the block is settled, they are rules together. -/
  together : Block.Settled block →
    ((∃ rule : Rule α, ofBlock platform block = .ok rule)
      ↔ ∃ rule : Rule α, ofBlock platform other = .ok rule)
  /-- Where both are rules, the rules agree if it is settled, and only
  then. -/
  agree : ∀ rule rule' : Rule α, ofBlock platform block = .ok rule →
    ofBlock platform other = .ok rule' → (Block.Settled block ↔ rule.Flattened rule')

namespace Rule

/-- The event has no line break where no token of the block has one. -/
theorem flat_event {platform : Platform φ ε} {tokens : List Token} {rule : Rule α}
    (hrule : ofBlock platform tokens = .ok rule)
    (hflat : ∀ token ∈ tokens, flat token.text = token.text) : flat rule.event = rule.event := by
  obtain ⟨keyword, rest, honLine, -, -, -, -, hname⟩ :=
    triggerOfTokens_eq_ok_iff.1 (ofBlock_eq_ok_iff.1 hrule).1
  have hname : rule.event = Token.phrase (eventClause rest).1 := hname
  have hline : ∀ token ∈ rest, token ∈ tokens := by
    intro token htoken
    have hmem : token ∈ (Block.ofTokens tokens).onLine := by
      rw [honLine]
      exact List.mem_cons_of_mem _ htoken
    exact List.dropWhile_subset _ hmem
  have hevent : ∀ token ∈ (eventClause rest).1, token ∈ rest := by
    rw [eventClause]
    cases hcut : Token.cutAt .with rest with
    | none => exact fun _ htoken => htoken
    | some cut =>
      obtain ⟨word, hrest, -, -⟩ := Token.cutAt_eq_some_iff.1 hcut
      rw [hrest]
      exact fun _ htoken => List.mem_append_left _ htoken
  have htexts : (Token.texts (eventClause rest).1).map flat
      = Token.texts (eventClause rest).1 := by
    rw [Token.texts, List.map_map]
    exact List.map_congr_left fun token htoken => hflat token (hline token (hevent token htoken))
  rw [hname, Token.phrase, Text.flat_intercalate, htexts]

theorem paired_of_drift {platform : Platform φ ε} (haccepting : platform.Accepting) {drift : Nat}
    {block other : List Token} (h : Drift drift block other) (hne : block ≠ [])
    (hsolid : Block.Solid block) (hsorted : block.Pairwise (·.line ≤ ·.line))
    (hsorted' : other.Pairwise (·.line ≤ ·.line))
    (hbare : Action.BareNames (Block.ofTokens block).action) :
    Paired platform block other := by
  obtain ⟨kept, extra, haction, hkept, honLine, hsettled⟩ := h.divide hne hsorted hsorted'
  have halike : ∀ {xs ys : List Token}, List.Forall₂ Token.Flattened xs ys → AllAlike xs ys :=
    fun hxs => hxs.imp fun _ _ hflat => hflat.alike
  constructor
  · intro hset
    obtain rfl := hsettled.2 hset
    rw [List.append_nil] at haction
    rw [← haction] at hkept
    constructor
    · rintro ⟨rule, hrule⟩
      obtain ⟨rule', hrule', -⟩ :=
        ofBlock_alike haccepting hbare (halike hkept) (halike honLine) hrule
      exact ⟨rule', hrule'⟩
    · -- Being alike is symmetric, and bare names go along with it.
      rintro ⟨rule', hrule'⟩
      obtain ⟨rule, hrule, -⟩ := ofBlock_alike haccepting (hbare.alike (halike hkept))
        (halike hkept).symm (halike honLine).symm hrule'
      exact ⟨rule, hrule⟩
  · intro rule rule' hrule hrule'
    constructor
    · intro hset
      obtain rfl := hsettled.2 hset
      rw [List.append_nil] at haction
      rw [← haction] at hkept
      obtain ⟨found, hfound, hevent, hpredicates, houtline⟩ :=
        ofBlock_alike haccepting hbare (halike hkept) (halike honLine) hrule
      have hsame : rule' = found := Except.ok.inj (hrule'.symm.trans hfound)
      rw [← hsame] at hevent hpredicates houtline
      have hflat : flat rule'.event = rule'.event := flat_event hrule' (h.flat_text hsolid)
      exact ⟨hflat.symm.trans hevent, hpredicates, houtline⟩
    · intro hflat
      by_contra hunsettled
      -- The action of the flattened block lacks the words in front.
      have hextra : extra ≠ [] := fun hnil => hunsettled (hsettled.1 hnil)
      have hread := (ofBlock_eq_ok_iff.1 hrule).2.1
      rw [haction] at hread
      have hread' := (ofBlock_eq_ok_iff.1 hrule').2.1
      exact Action.outline_ne_of_append (halike hkept) hextra
        (Action.derives_of_ofTokens hread') (Action.derives_of_ofTokens hread)
        hflat.outline_eq.symm

end Rule

/-! ### Rulesets -/

namespace Ruleset

theorem ofScript_eq_ok_iff {platform : Platform φ ε} {script : String} {ruleset : Ruleset α} :
    ofScript platform script = .ok ruleset
      ↔ List.Forall₂ (fun block rule => Rule.ofBlock platform block = .ok rule)
        (Block.split (tokenize script)) ruleset.rules :=
  ofTokens_eq_ok_iff

/-- The blocks of a script and of the flattened one. -/
theorem paired_blocks {platform : Platform φ ε} (haccepting : platform.Accepting)
    {script : String}
    (hbare : ∀ block ∈ Block.split (tokenize script),
      Action.BareNames (Block.ofTokens block).action) :
    List.Forall₂ (Rule.Paired platform) (Block.split (tokenize script))
      (Block.split (tokenize (flattenGroups script))) := by
  have hdrift := (tokenize_flattenGroups script).split
  refine List.forall₂_iff_zip.2 ⟨hdrift.length_eq, ?_⟩
  intro block other hmem
  obtain ⟨hblock, hother⟩ := List.of_mem_zip hmem
  obtain ⟨hne, hsolid, hsub⟩ := Block.mem_split hblock
  obtain ⟨drift, h⟩ := List.forall₂_zip hdrift hmem
  exact Rule.paired_of_drift haccepting h hne hsolid ((tokenize_sorted script).sublist hsub)
    ((tokenize_sorted _).sublist (Block.mem_split hother).2.2) (hbare block hblock)

/-- Settled blocks and the flattened ones are rules together. -/
theorem exists_rules_iff {platform : Platform φ ε} {blocks others : List (List Token)}
    (h : List.Forall₂ (Rule.Paired platform) blocks others)
    (hsettled : ∀ block ∈ blocks, Block.Settled block) :
    (∃ rules : List (Rule α),
        List.Forall₂ (fun block rule => Rule.ofBlock platform block = .ok rule) blocks rules)
      ↔ ∃ rules : List (Rule α),
        List.Forall₂ (fun block rule => Rule.ofBlock platform block = .ok rule) others rules := by
  induction h with
  | nil => exact Iff.rfl
  | cons hhead _ ih =>
    rw [List.forall_mem_cons] at hsettled
    have hrest := ih hsettled.2
    have hfirst := hhead.together hsettled.1
    constructor
    · rintro ⟨_, hrules⟩
      cases hrules with
      | cons hrule hothers =>
        obtain ⟨rule', hrule'⟩ := hfirst.1 ⟨_, hrule⟩
        obtain ⟨rules', hrules'⟩ := hrest.1 ⟨_, hothers⟩
        exact ⟨rule' :: rules', .cons hrule' hrules'⟩
    · rintro ⟨_, hrules⟩
      cases hrules with
      | cons hrule hothers =>
        obtain ⟨rule', hrule'⟩ := hfirst.2 ⟨_, hrule⟩
        obtain ⟨rules', hrules'⟩ := hrest.2 ⟨_, hothers⟩
        exact ⟨rule' :: rules', .cons hrule' hrules'⟩

/-- The rules of settled blocks and of the flattened ones agree, and no
others do. -/
theorem settled_iff_flattened {platform : Platform φ ε} {blocks others : List (List Token)}
    {rules rules' : List (Rule α)} (h : List.Forall₂ (Rule.Paired platform) blocks others)
    (hrules : List.Forall₂ (fun block rule => Rule.ofBlock platform block = .ok rule)
      blocks rules)
    (hrules' : List.Forall₂ (fun block rule => Rule.ofBlock platform block = .ok rule)
      others rules') :
    (∀ block ∈ blocks, Block.Settled block) ↔ List.Forall₂ Rule.Flattened rules rules' := by
  induction h generalizing rules rules' with
  | nil =>
    cases hrules
    cases hrules'
    simp
  | cons hhead _ ih =>
    cases hrules with
    | cons hrule hothers =>
      cases hrules' with
      | cons hrule' hothers' =>
        rw [List.forall_mem_cons, List.forall₂_cons, ih hothers hothers',
          hhead.agree _ _ hrule hrule']

/-- A script and the flattened one, on a platform that accepts
everything. A script in which every group that ends on a block's last
line begins there is a ruleset exactly if the flattened one is. Where
both are rulesets, the rules are the same, line breaks in events apart,
with the same number of predicates and the same outline of the action,
if the script is like this, and only then. -/
theorem ofScript_flattenGroups {platform : Platform φ ε} (haccepting : platform.Accepting)
    {script : String}
    (hbare : ∀ block ∈ Block.split (tokenize script),
      Action.BareNames (Block.ofTokens block).action) :
    ((∀ block ∈ Block.split (tokenize script), Block.Settled block) →
        ((∃ ruleset : Ruleset α, ofScript platform script = .ok ruleset)
          ↔ ∃ ruleset : Ruleset α, ofScript platform (flattenGroups script) = .ok ruleset))
      ∧ ∀ ruleset other : Ruleset α, ofScript platform script = .ok ruleset →
          ofScript platform (flattenGroups script) = .ok other →
          ((∀ block ∈ Block.split (tokenize script), Block.Settled block)
            ↔ List.Forall₂ Rule.Flattened ruleset.rules other.rules) := by
  have hpaired := paired_blocks haccepting hbare
  constructor
  · intro hsettled
    have hiff := exists_rules_iff hpaired hsettled
    constructor
    · rintro ⟨ruleset, hruleset⟩
      obtain ⟨rules, hrules⟩ := hiff.1 ⟨_, ofScript_eq_ok_iff.1 hruleset⟩
      exact ⟨⟨rules⟩, ofScript_eq_ok_iff.2 hrules⟩
    · rintro ⟨ruleset, hruleset⟩
      obtain ⟨rules, hrules⟩ := hiff.2 ⟨_, ofScript_eq_ok_iff.1 hruleset⟩
      exact ⟨⟨rules⟩, ofScript_eq_ok_iff.2 hrules⟩
  · intro ruleset other hruleset hother
    exact settled_iff_flattened hpaired (ofScript_eq_ok_iff.1 hruleset)
      (ofScript_eq_ok_iff.1 hother)

/-- A group over two lines in the action and one on the last line. -/
theorem ofScript_flattenGroups_settled :
    Echo.lenient.Accepting
      ∧ (∀ block ∈ Block.split (tokenize "ECHO %a\nb%\nON %Gi\nft%"),
        Action.BareNames (Block.ofTokens block).action)
      ∧ (∀ block ∈ Block.split (tokenize "ECHO %a\nb%\nON %Gi\nft%"), Block.Settled block)
      ∧ ∃ ruleset other, ofScript Echo.lenient "ECHO %a\nb%\nON %Gi\nft%" = .ok ruleset
        ∧ ofScript Echo.lenient (flattenGroups "ECHO %a\nb%\nON %Gi\nft%") = .ok other
        ∧ List.Forall₂ Rule.Flattened ruleset.rules other.rules := by
  have hblocks : Block.split (tokenize "ECHO %a\nb%\nON %Gi\nft%")
      = [[⟨.word, "ECHO", 1⟩, ⟨.group, "a\nb", 1⟩, ⟨.word, "ON", 3⟩, ⟨.group, "Gi\nft", 3⟩]] := by
    decide +kernel
  have hbare : ∀ block ∈ Block.split (tokenize "ECHO %a\nb%\nON %Gi\nft%"),
      Action.BareNames (Block.ofTokens block).action := by
    rw [hblocks]
    intro block hblock
    rw [List.mem_singleton.1 hblock]
    exact .leaf (by decide) rfl
  have hsettled : ∀ block ∈ Block.split (tokenize "ECHO %a\nb%\nON %Gi\nft%"),
      Block.Settled block := by
    decide +kernel
  have hruleset : ofScript Echo.lenient "ECHO %a\nb%\nON %Gi\nft%"
      = .ok ⟨[⟨"Gi\nft", .leaf "ECHO" [⟨.group, "a\nb", 1⟩] ["a\nb"], [], some 3⟩]⟩ := by
    decide +kernel
  have hboth := ofScript_flattenGroups Echo.accepting hbare
  obtain ⟨other, hother⟩ := (hboth.1 hsettled).1 ⟨_, hruleset⟩
  exact ⟨Echo.accepting, hbare, hsettled, _, other, hruleset, hother,
    (hboth.2 _ other hruleset hother).1 hsettled⟩

/-- A group that ends on the last line and begins before it. What follows
it is all that is left on the last line. -/
theorem ofScript_flattenGroups_unsettled :
    Echo.lenient.Accepting
      ∧ (∀ block ∈ Block.split (tokenize "ECHO x\nON %Gi\nft% card"),
        Action.BareNames (Block.ofTokens block).action)
      ∧ ofScript Echo.lenient "ECHO x\nON %Gi\nft% card"
        = .error ⟨.noOnLine, some 1, some 3, some "card"⟩
      ∧ ofScript Echo.lenient (flattenGroups "ECHO x\nON %Gi\nft% card")
        = .ok ⟨[⟨"Gi ft card", .leaf "ECHO" [⟨.word, "x", 1⟩] ["x"], [], some 2⟩]⟩
      ∧ ¬ ((∃ ruleset, ofScript Echo.lenient "ECHO x\nON %Gi\nft% card" = .ok ruleset)
        ↔ ∃ ruleset, ofScript Echo.lenient (flattenGroups "ECHO x\nON %Gi\nft% card")
          = .ok ruleset) := by
  have hblocks : Block.split (tokenize "ECHO x\nON %Gi\nft% card")
      = [[⟨.word, "ECHO", 1⟩, ⟨.word, "x", 1⟩, ⟨.word, "ON", 2⟩, ⟨.group, "Gi\nft", 2⟩,
          ⟨.word, "card", 3⟩]] := by
    decide +kernel
  have herror : ofScript Echo.lenient "ECHO x\nON %Gi\nft% card"
      = .error ⟨.noOnLine, some 1, some 3, some "card"⟩ := by
    decide +kernel
  have hruleset : ofScript Echo.lenient (flattenGroups "ECHO x\nON %Gi\nft% card")
      = .ok ⟨[⟨"Gi ft card", .leaf "ECHO" [⟨.word, "x", 1⟩] ["x"], [], some 2⟩]⟩ := by
    decide +kernel
  refine ⟨Echo.accepting, ?_, herror, hruleset, ?_⟩
  · rw [hblocks]
    intro block hblock
    rw [List.mem_singleton.1 hblock]
    exact .leaf (by decide) rfl
  · intro hiff
    obtain ⟨ruleset, hok⟩ := hiff.2 ⟨_, hruleset⟩
    rw [herror] at hok
    cases hok

end Ruleset

end EventRules

import EventRules.Proofs.Grammar.Rule

/-!
# `EventRules.Proofs.Grammar.Faults`: where errors are placed

The readers of predicates, actions and triggers say what is wrong, and
near which word. They know neither the number of the rule nor the line.
`Rule.ofBlock` adds the line, and `Rule.listOfBlocks` the number.

A factory of the host may place its own errors, and then its places
stand. `Platform.Unplaced` rules that out, and `Platform.Unlined` rules
out lines alone. Under these:

* `Action.ofTokens_failsWith` and `Rule.triggerOfTokens_failsWith`: what
  holds of the errors of all factories holds of those of the readers, if
  adding a word does not matter to it. So the readers place no error, or
  put none on a line.
* `Rule.ofBlock_error` and `Rule.listOfBlocks_error`: an error of a block
  has a line and no rule, and an error of a script has both.
-/

set_option autoImplicit false

namespace EventRules

namespace SyntaxError

/-- The error names neither a rule nor a line. -/
structure Unplaced (error : SyntaxError) : Prop where
  rule_eq : error.rule = none
  line_eq : error.line = none

/-- The error names no line. -/
def Unlined (error : SyntaxError) : Prop :=
  error.line = none

/-- A property of the errors without a place, which adding a word does not
change. -/
class StableNear (P : SyntaxError → Prop) : Prop where
  of (fault : Fault) : P (.of fault)
  near {error : SyntaxError} (h : P error) (word : String) : P (error.near word)

instance : StableNear Unplaced where
  of _ := ⟨rfl, rfl⟩
  near h _ := ⟨h.rule_eq, h.line_eq⟩

instance : StableNear Unlined where
  of _ := rfl
  near h _ := h

end SyntaxError

/-- The property holds of every error that may come out. -/
def FailsWith (P : SyntaxError → Prop) {β : Type} (result : Except SyntaxError β) : Prop :=
  ∀ error, result = .error error → P error

/-- No error that may come out is placed. -/
def FailsUnplaced {β : Type} (result : Except SyntaxError β) : Prop :=
  ∀ error, result = .error error → error.Unplaced

/-! ### Results -/

namespace FailsWith

variable {β γ : Type} {P : SyntaxError → Prop}

theorem ok (b : β) : FailsWith P (.ok b) := by
  intro error h
  cases h

theorem error {e : SyntaxError} (h : P e) : FailsWith P (Except.error (α := β) e) := by
  intro error herror
  cases herror
  exact h

/-- A fault of the reader itself. -/
theorem fault [SyntaxError.StableNear P] (fault : Fault) :
    FailsWith P (Except.error (α := β) (.of fault)) :=
  error (SyntaxError.StableNear.of fault)

/-- A fault near a word. -/
theorem fault_near [SyntaxError.StableNear P] (fault : Fault) (word : String) :
    FailsWith P (Except.error (α := β) ((SyntaxError.of fault).near word)) :=
  error (SyntaxError.StableNear.near (SyntaxError.StableNear.of fault) word)

theorem map {result : Except SyntaxError β} (h : FailsWith P result) (f : β → γ) :
    FailsWith P (result.map f) := by
  cases result with
  | error e => exact error (h e rfl)
  | ok b => exact ok (f b)

theorem bind {first : Except SyntaxError β} {next : β → Except SyntaxError γ}
    (hfirst : FailsWith P first) (hnext : ∀ b, FailsWith P (next b)) :
    FailsWith P (first >>= next) := by
  cases first with
  | error e => exact error (hfirst e rfl)
  | ok b => exact hnext b

theorem mapM {f : γ → Except SyntaxError β} (h : ∀ x, FailsWith P (f x)) (xs : List γ) :
    FailsWith P (xs.mapM f) := by
  induction xs with
  | nil => exact ok []
  | cons x xs ih =>
    rw [List.mapM_cons]
    exact bind (h x) fun _ => bind ih fun _ => ok _

end FailsWith

/-! ### Platforms -/

section Platforms

variable {φ α ε : Type} [Host φ α ε]

/-- The property holds of the errors of all factories on the platform. -/
structure Platform.RefusesWith (P : SyntaxError → Prop) (platform : Platform φ ε) : Prop where
  build : ∀ name factory, platform.action? name = some factory →
    ∀ words, FailsWith P (Host.build factory platform words)
  comparator : ∀ symbol factory, platform.comparator? symbol = some factory →
    ∀ value, FailsWith P (factory value)

/-- No factory on the platform puts its errors on a line. -/
def Platform.Unlined (platform : Platform φ ε) : Prop :=
  platform.RefusesWith SyntaxError.Unlined

/-- No factory on the platform places its errors. -/
structure Platform.Unplaced (platform : Platform φ ε) : Prop where
  build : ∀ name factory, platform.action? name = some factory →
    ∀ words, FailsUnplaced (Host.build factory platform words)
  comparator : ∀ symbol factory, platform.comparator? symbol = some factory →
    ∀ value, FailsUnplaced (factory value)

namespace Platform.Unplaced

variable {platform : Platform φ ε}

theorem refusesWith (h : platform.Unplaced) : platform.RefusesWith SyntaxError.Unplaced :=
  ⟨h.build, h.comparator⟩

theorem unlined (h : platform.Unplaced) : platform.Unlined where
  build name factory hname words error herror :=
    (h.build name factory hname words error herror).line_eq
  comparator symbol factory hsymbol value error herror :=
    (h.comparator symbol factory hsymbol value error herror).line_eq

end Platform.Unplaced

end Platforms

/-! ### The readers of a rule's parts -/

section Readers

variable {φ α ε : Type} [Host φ α ε] {P : SyntaxError → Prop} [SyntaxError.StableNear P]

/-- The operators place no error. -/
theorem Operator.read_failsWith (operator : Operator) (text : String) :
    FailsWith P (operator.read text) := by
  have hnumber : FailsWith P (Literal.number text) := by
    rw [Literal.number]
    split
    · exact .ok _
    · exact .fault_near _ text
  have hrange : FailsWith P (Literal.range text) := by
    rw [Literal.range]
    split
    · exact .fault_near _ text
    · split
      · exact .fault_near _ text
      · exact .ok _
  -- The other operators take any text.
  cases operator with
  | number relation => exact hnumber.map _
  | inRange => exact hrange.map _
  | _ => exact .ok _

theorem Predicate.ofTokens_failsWith {platform : Platform φ ε} (h : platform.RefusesWith P)
    (tokens : List Token) : FailsWith P (ofTokens platform tokens) := by
  rw [ofTokens]
  split
  · exact .fault _
  · next field symbol value _ =>
    cases hsymbol : platform.comparator? symbol with
    | none => exact .fault_near _ symbol
    | some factory => exact (h.comparator symbol factory hsymbol value).map _

theorem Predicate.listOfTokens_failsWith {platform : Platform φ ε} (h : platform.RefusesWith P)
    (tokens : List Token) : FailsWith P (listOfTokens platform tokens) :=
  .mapM (ofTokens_failsWith h) _

theorem Clauses.branches_failsWith (tokens : List Token) : FailsWith P (branches tokens) := by
  rw [branches]
  split
  · exact .ok _
  · exact .fault_near _ _
  · exact .ok _

theorem Clauses.ofTokens_failsWith (tokens : List Token) : FailsWith P (ofTokens tokens) := by
  rw [ofTokens]
  split
  · next error hbranches => exact .error (branches_failsWith tokens error hbranches)
  · split
    · exact .fault _
    · exact .fault _
    · exact .fault _
    · exact .ok _

namespace Action

theorem leafOfTokens_failsWith {platform : Platform φ ε} (h : platform.RefusesWith P)
    (name : String) (args : List Token) :
    FailsWith P (leafOfTokens platform name args) := by
  rw [leafOfTokens]
  cases hname : platform.action? name with
  | none => exact .fault_near _ name
  | some factory =>
    have hbuild := h.build name factory hname (Token.texts args)
    simp only
    cases hplugin : Host.build factory platform (Token.texts args) with
    | ok plugin => exact .ok _
    | error error => exact .error (SyntaxError.StableNear.near (hbuild error hplugin) name)

/-- The reader of actions. -/
theorem ofTokens_failsWith {platform : Platform φ ε} (h : platform.RefusesWith P)
    (tokens : List Token) : FailsWith P (ofTokens platform tokens) := by
  induction tokens using ofTokens.induct with
  | case1 =>
    rw [ofTokens]
    exact .fault _
  | case2 head rest hif error hclauses =>
    rw [ofTokens_error platform hif hclauses]
    exact .error (Clauses.ofTokens_failsWith rest error hclauses)
  | case3 head rest hif condition body hclauses ih =>
    rw [ofTokens_ifThen platform hif hclauses]
    exact (Predicate.listOfTokens_failsWith h condition).bind fun _ =>
      ih.bind fun _ => .ok _
  | case4 head rest hif condition body otherwise hclauses ihBody ihOther =>
    rw [ofTokens_ifThenElse platform hif hclauses]
    exact (Predicate.listOfTokens_failsWith h condition).bind fun _ =>
      ihBody.bind fun _ => ihOther.bind fun _ => .ok _
  | case5 head rest hif =>
    rw [ofTokens_leaf platform (Bool.eq_false_iff.2 hif)]
    exact leafOfTokens_failsWith h head.text rest

end Action

namespace Rule

theorem predicatesOfTokens_failsWith {platform : Platform φ ε} (h : platform.RefusesWith P)
    (tokens : Option (List Token)) : FailsWith P (predicatesOfTokens platform tokens) := by
  simp only [predicatesOfTokens]
  split
  · exact .ok _
  · exact .fault _
  · exact Predicate.listOfTokens_failsWith h _

/-- The reader of a rule's last line. -/
theorem triggerOfTokens_failsWith {platform : Platform φ ε} (h : platform.RefusesWith P)
    (block : Block) : FailsWith P (triggerOfTokens platform block) := by
  rw [triggerOfTokens]
  split
  · exact .fault _
  · next keyword rest _ =>
    split
    · exact .fault_near _ _
    split
    · exact .fault _
    · simp only
      split
      · exact .fault _
      · exact (predicatesOfTokens_failsWith h _).map _

end Rule

end Readers

/-! ### Blocks -/

namespace Rule

variable {φ α ε : Type} [Host φ α ε]

/-- An error of a block has a line and no rule. -/
theorem ofBlock_error {platform : Platform φ ε} (h : platform.Unplaced)
    {tokens : List Token} {error : SyntaxError}
    (herror : ofBlock (α := α) platform tokens = .error error) :
    error.rule = none ∧ ∃ line, error.line = some line := by
  rw [ofBlock] at herror
  cases htrigger : triggerOfTokens platform (Block.ofTokens tokens) with
  | error inner =>
    have hinner : inner.Unplaced := triggerOfTokens_failsWith h.refusesWith _ inner htrigger
    simp only [htrigger] at herror
    cases herror
    -- The error has no line of its own, so it gets that of the trigger.
    refine ⟨hinner.rule_eq, (Block.ofTokens tokens).line, ?_⟩
    show inner.line.or (some _) = some _
    rw [hinner.line_eq]
    rfl
  | ok trigger =>
    -- A trigger is read only where there is an action, whose line is known.
    obtain ⟨_, _, -, -, hne, -⟩ := triggerOfTokens_eq_ok_iff.1 htrigger
    obtain ⟨first, others, hfirst⟩ := List.exists_cons_of_ne_nil hne
    cases haction : Action.ofTokens (α := α) platform (Block.ofTokens tokens).action with
    | ok action =>
      simp only [htrigger, haction] at herror
      cases herror
    | error inner =>
      have hinner : inner.Unplaced := Action.ofTokens_failsWith h.refusesWith _ inner haction
      simp only [htrigger, haction] at herror
      rw [hfirst] at herror
      cases herror
      refine ⟨hinner.rule_eq, first.line, ?_⟩
      show inner.line.or (some first.line) = some first.line
      rw [hinner.line_eq]
      rfl

/-- An error of several blocks has a rule and a line. -/
theorem listOfBlocks_error {platform : Platform φ ε} (h : platform.Unplaced) {number : Nat}
    {blocks : List (List Token)} {error : SyntaxError}
    (herror : listOfBlocks (α := α) platform number blocks = .error error) :
    ∃ rule line, error.rule = some rule ∧ error.line = some line := by
  induction blocks generalizing number with
  | nil => cases herror
  | cons block rest ih =>
    rw [listOfBlocks] at herror
    cases hblock : ofBlock (α := α) platform block with
    | error inner =>
      obtain ⟨hrule, line, hline⟩ := ofBlock_error h hblock
      rw [hblock] at herror
      cases herror
      -- Nor has it a rule, so it gets the number of the block.
      refine ⟨number, line, ?_, hline⟩
      show inner.rule.or (some number) = some number
      rw [hrule]
      rfl
    | ok rule =>
      rw [hblock] at herror
      cases hrest : listOfBlocks (α := α) platform (number + 1) rest with
      | ok rules =>
        simp only [hrest] at herror
        cases herror
      | error inner =>
        -- An error of a later block is passed on as it is.
        simp only [hrest] at herror
        cases herror
        exact ih hrest

end Rule

end EventRules

import EventRules.Proofs.Grammar.Rule

/-!
# `EventRules.Proofs.Grammar.Positions`: reading by positions

The readers of the grammar take lists apart: a cut gives what stands before a
keyword and what stands after it. A reader that works in place looks for
positions and takes the tokens between two of them. It can go wrong in ways that
the readers of the grammar cannot. A position may lie outside the list, or a
reader may call itself for tokens that are not fewer, and so never end.

This module has the readers in that form. A position is always checked before it
is used (`element`, `stretch`), and so is the number of tokens before an action
is read inside another one. What fails a check is a `Stray`, which is not a
syntax error.

* `Clauses.ofPositions_eq`, `Predicate.ofPositions_eq`, `Action.ofPositions_eq`
  and `Rule.ofPositions_eq`: each reader gives what the reader of the grammar
  gives, and never strays. Tokens may be of any kind, stand in any order and be
  on any lines.
* `Platform.readsWithin` puts this together for all that is read.
-/

set_option autoImplicit false

namespace EventRules

/-! ### Positions -/

/-- What keeps a reader that goes by positions from ending with a result. -/
inductive Stray where
  /-- A position outside the list. -/
  | outside
  /-- Tokens to read in turn that are not fewer. -/
  | notFewer
  deriving DecidableEq, Repr

/-- An attempt to read by positions. It may stray, and otherwise it ends with a
result or with a syntax error. -/
abbrev Attempt (β : Type) : Type :=
  ExceptT SyntaxError (Except Stray) β

namespace Attempt

variable {β γ : Type}

/-- The attempt strays. -/
def stray (reason : Stray) : Attempt β :=
  ExceptT.mk (.error reason)

/-- The attempt ends. -/
def settled (result : Except SyntaxError β) : Attempt β :=
  ExceptT.mk (.ok result)

/-- What stands at the position. -/
def element (xs : List β) (position : Nat) : Attempt β :=
  match xs[position]? with
  | some x => pure x
  | none => stray .outside

/-- What stands from one position up to another, which may be the end. -/
def stretch (xs : List β) (start stop : Nat) : Attempt (List β) :=
  if start ≤ stop ∧ stop ≤ xs.length then pure ((xs.take stop).drop start)
  else stray .outside

theorem run_settled (result : Except SyntaxError β) : (settled result).run = .ok result :=
  rfl

theorem settled_ok_bind (b : β) (next : β → Attempt γ) : (settled (.ok b) >>= next) = next b :=
  rfl

theorem adapt_settled (change : SyntaxError → SyntaxError) (result : Except SyntaxError β) :
    ExceptT.adapt change (settled result) = settled (result.mapError change) :=
  rfl

theorem pure_eq_settled (b : β) : (pure b : Attempt β) = settled (pure b) :=
  rfl

/-- One attempt that ends after another. -/
theorem settled_bind (first : Except SyntaxError β) (next : β → Except SyntaxError γ) :
    (settled first >>= fun b => settled (next b)) = settled (first >>= next) := by
  cases first <;> rfl

/-- Attempts at several parts that end. -/
theorem mapM_settled (read : γ → Except SyntaxError β) (xs : List γ) :
    xs.mapM (fun x => settled (read x)) = settled (xs.mapM read) := by
  induction xs with
  | nil => rfl
  | cons x xs ih => simp only [List.mapM_cons, ih, pure_eq_settled, settled_bind]

theorem element_zero (x : β) (xs : List β) : element (x :: xs) 0 = settled (.ok x) :=
  rfl

/-- What stands before a position in the list. -/
theorem stretch_before {xs : List β} {stop : Nat} (h : stop ≤ xs.length) :
    stretch xs 0 stop = settled (.ok (xs.take stop)) :=
  if_pos ⟨Nat.zero_le _, h⟩

/-- What stands from a position in the list on. -/
theorem stretch_after {xs : List β} {start : Nat} (h : start ≤ xs.length) :
    stretch xs start xs.length = settled (.ok (xs.drop start)) := by
  rw [stretch, if_pos ⟨h, Nat.le_refl _⟩, List.take_length]
  rfl

end Attempt

open Attempt

/-- A cut is made at the position of the keyword. -/
theorem Token.cutAt_eq_map_findIdx? (keyword : Keyword) (tokens : List Token) :
    cutAt keyword tokens
      = (tokens.findIdx? (·.isKeyword keyword)).map fun position =>
          (tokens.take position, tokens.drop (position + 1)) := by
  induction tokens with
  | nil => rfl
  | cons token rest ih =>
    rw [cutAt, List.findIdx?_cons, ih]
    cases token.isKeyword keyword with
    | true => rfl
    | false => cases rest.findIdx? (·.isKeyword keyword) <;> rfl

theorem lt_length_of_findIdx? {β : Type} {p : β → Bool} {xs : List β} {position : Nat}
    (h : xs.findIdx? p = some position) : position < xs.length :=
  (List.findIdx?_eq_some_iff_findIdx_eq.1 h).1

/-! ### Predicates -/

namespace Predicate

variable {φ ε : Type}

/-- Reads a predicate. The field is the first word, and the symbol stands between
it and the value. -/
def ofPositions (platform : Platform φ ε) (tokens : List Token) : Attempt Predicate :=
  let words := Token.texts tokens
  let start := valueStart words
  if words.length < 3 ∨ start < 2 then throw (.of (.noPredicate (Token.phrase tokens)))
  else do
    let field ← element words 0
    let symbol ← stretch words 1 start
    let value ← stretch words start words.length
    let symbol := Text.upper (String.intercalate " " symbol)
    match platform.comparator? symbol with
    | none => throw ((SyntaxError.of (.unknownComparator symbol)).near symbol)
    | some factory =>
      settled ((factory (String.intercalate " " value)).map (⟨field, ·⟩))

/-- Reads the predicates between keywords `AND`. -/
def listOfPositions (platform : Platform φ ε) (tokens : List Token) :
    Attempt (List Predicate) :=
  (tokens.splitOnP (·.isKeyword .and)).mapM (ofPositions platform)

theorem lastOpening?_lt {words : List String} {position : Nat}
    (h : lastOpening? words = some position) : position < words.length := by
  induction words generalizing position with
  | nil => cases h
  | cons word rest ih =>
    rw [lastOpening?] at h
    split at h
    · next index hindex =>
      cases h
      have := ih hindex
      simp only [List.length_cons]
      omega
    · split at h
      · cases h
        exact Nat.zero_lt_succ _
      · cases h

/-- The value begins at one of the words, if there are any. -/
theorem valueStart_le (words : List String) : valueStart words ≤ words.length - 1 := by
  rw [valueStart]
  split
  · cases hopening : lastOpening? words with
    | none => exact Nat.le_refl _
    | some position =>
      have := lastOpening?_lt hopening
      show position ≤ words.length - 1
      omega
  · exact Nat.le_refl _

theorem ofPositions_eq (platform : Platform φ ε) (tokens : List Token) :
    ofPositions platform tokens = settled (ofTokens platform tokens) := by
  have hstart := valueStart_le (Token.texts tokens)
  rw [ofPositions, ofTokens]
  cases hwords : Token.texts tokens with
  | nil => rfl
  | cons field rest =>
    rw [hwords] at hstart
    simp only [divide?]
    by_cases hfew : (field :: rest).length < 3 ∨ valueStart (field :: rest) < 2
    · -- Too few words, and none between the field and the value, is the same.
      have hzero : valueStart (field :: rest) - 1 = 0 := by omega
      rw [if_pos hfew, if_pos hzero]
      rfl
    · have hzero : valueStart (field :: rest) - 1 ≠ 0 := by omega
      rw [if_neg hfew, if_neg hzero]
      have hlength : valueStart (field :: rest) ≤ (field :: rest).length := by omega
      obtain ⟨start, hvalue⟩ : ∃ start, valueStart (field :: rest) = start + 1 :=
        ⟨valueStart (field :: rest) - 1, by omega⟩
      rw [hvalue] at hlength ⊢
      have hsymbol : stretch (field :: rest) 1 (start + 1) = settled (.ok (rest.take start)) :=
        if_pos ⟨Nat.le_add_left 1 start, hlength⟩
      simp only [element_zero, hsymbol, stretch_after hlength, settled_ok_bind,
        Nat.add_sub_cancel, List.drop_succ_cons]
      cases platform.comparator? (Text.upper (String.intercalate " " (rest.take start))) <;> rfl

theorem listOfPositions_eq (platform : Platform φ ε) (tokens : List Token) :
    listOfPositions platform tokens = settled (listOfTokens platform tokens) := by
  have hread : ofPositions platform = fun part => settled (ofTokens platform part) :=
    funext (ofPositions_eq platform)
  rw [listOfPositions, hread, mapM_settled, listOfTokens]

end Predicate

/-! ### Conditionals -/

namespace Clauses

/-- Divides the tokens around the first `ELSE`. -/
def branchesOfPositions (tokens : List Token) :
    Attempt (List Token × Option (List Token)) :=
  match tokens.findIdx? (·.isKeyword .else) with
  | none => pure (tokens, none)
  | some position => do
    let otherwise ← stretch tokens (position + 1) tokens.length
    if otherwise.isEmpty then
      throw ((SyntaxError.of .noActionAfterElse).near Keyword.else.text)
    else
      let first ← stretch tokens 0 position
      return (first, some otherwise)

/-- Divides the tokens around the first `THEN`. -/
def conditionOfPositions (tokens : List Token) : Attempt (List Token × List Token) :=
  match tokens.findIdx? (·.isKeyword .then) with
  | none => throw (.of .noThen)
  | some position => do
    let condition ← stretch tokens 0 position
    let body ← stretch tokens (position + 1) tokens.length
    return (condition, body)

/-- The parts of a conditional, of which the tokens follow the `IF`. -/
def ofPositions (tokens : List Token) : Attempt Clauses := do
  let (first, otherwise) ← branchesOfPositions tokens
  let (condition, body) ← conditionOfPositions first
  if condition.isEmpty then throw (.of .noConditionAfterIf)
  else if body.isEmpty then throw (.of .noActionAfterThen)
  else return ⟨condition, body, otherwise⟩

theorem branchesOfPositions_eq (tokens : List Token) :
    branchesOfPositions tokens = settled (branches tokens) := by
  rw [branchesOfPositions, branches, Token.cutAt_eq_map_findIdx?]
  cases hposition : tokens.findIdx? (·.isKeyword .else) with
  | none => rfl
  | some position =>
    have hlt := lt_length_of_findIdx? hposition
    simp only [stretch_after hlt, stretch_before (Nat.le_of_lt hlt), settled_ok_bind,
      Option.map_some]
    cases tokens.drop (position + 1) <;> rfl

theorem conditionOfPositions_eq (tokens : List Token) :
    conditionOfPositions tokens
      = settled (((Token.cutAt .then tokens).map Except.ok).getD (.error (.of .noThen))) := by
  rw [conditionOfPositions, Token.cutAt_eq_map_findIdx?]
  cases hposition : tokens.findIdx? (·.isKeyword .then) with
  | none => rfl
  | some position =>
    have hlt := lt_length_of_findIdx? hposition
    simp only [stretch_after hlt, stretch_before (Nat.le_of_lt hlt), settled_ok_bind]
    rfl

theorem ofPositions_eq (tokens : List Token) :
    ofPositions tokens = settled (ofTokens tokens) := by
  rw [ofPositions, ofTokens, branchesOfPositions_eq]
  cases branches tokens with
  | error error => rfl
  | ok parts =>
    obtain ⟨first, otherwise⟩ := parts
    simp only [settled_ok_bind, conditionOfPositions_eq]
    cases Token.cutAt .then first with
    | none => rfl
    | some cut =>
      obtain ⟨condition, body⟩ := cut
      cases condition <;> cases body <;> rfl

end Clauses

/-! ### Actions -/

namespace Action

variable {φ α ε : Type} [Host φ α ε]

mutual

/-- Reads an action. What follows an `IF` is fewer tokens. -/
def ofPositions (platform : Platform φ ε) (tokens : List Token) : Attempt (Action α) :=
  match tokens with
  | [] => throw (.of .noAction)
  | head :: rest =>
    if head.isKeyword .if then conditionalOfPositions platform rest
    else settled (leafOfTokens platform head.text rest)
termination_by tokens.length

/-- Reads a conditional after its `IF`. A branch is read only if it has fewer
tokens. -/
def conditionalOfPositions (platform : Platform φ ε) (tokens : List Token) :
    Attempt (Action α) := do
  let ⟨condition, body, otherwise⟩ ← Clauses.ofPositions tokens
  let condition ← Predicate.listOfPositions platform condition
  let body ←
    if body.length < tokens.length then ofPositions platform body else stray .notFewer
  match otherwise with
  | none => return .ifThen condition body
  | some otherwise =>
    let otherwise ←
      if otherwise.length < tokens.length then ofPositions platform otherwise
      else stray .notFewer
    return .ifThenElse condition body otherwise
termination_by tokens.length

end

/-- By induction on the tokens along the reader of the grammar. The parts of a
conditional are always fewer tokens. -/
theorem ofPositions_eq (platform : Platform φ ε) (tokens : List Token) :
    ofPositions (α := α) platform tokens = settled (ofTokens platform tokens) := by
  induction tokens using ofTokens.induct with
  | case1 =>
    rw [ofPositions, ofTokens]
    rfl
  | case2 head rest hif error hclauses =>
    rw [ofPositions, if_pos hif, conditionalOfPositions, ofTokens_error platform hif hclauses,
      Clauses.ofPositions_eq, hclauses]
    rfl
  | case3 head rest hif condition body hclauses ih =>
    have hbody := (Clauses.length_of_ofTokens hclauses).1
    rw [ofPositions, if_pos hif, conditionalOfPositions, ofTokens_ifThen platform hif hclauses,
      Clauses.ofPositions_eq, hclauses]
    simp only [settled_ok_bind, Predicate.listOfPositions_eq, if_pos hbody, ih, pure_eq_settled,
      settled_bind]
  | case4 head rest hif condition body otherwise hclauses ihBody ihOther =>
    have hlength := Clauses.length_of_ofTokens hclauses
    have hother := hlength.2 otherwise rfl
    rw [ofPositions, if_pos hif, conditionalOfPositions, ofTokens_ifThenElse platform hif hclauses,
      Clauses.ofPositions_eq, hclauses]
    simp only [settled_ok_bind, Predicate.listOfPositions_eq, if_pos hlength.1, if_pos hother,
      ihBody, ihOther, pure_eq_settled, settled_bind]
  | case5 head rest hif =>
    rw [ofPositions, if_neg hif, ofTokens_leaf platform (Bool.eq_false_iff.2 hif)]

end Action

/-! ### Rules -/

namespace Rule

variable {φ α ε : Type} [Host φ α ε]

/-- Reads the predicates after the position of `WITH`, if there is one. Errors
are on the line. -/
def predicatesOfPositions (platform : Platform φ ε) (line : Nat) (tokens : List Token) :
    Option Nat → Attempt (List Predicate)
  | none => pure []
  | some position => do
    let tokens ← stretch tokens (position + 1) tokens.length
    if tokens.isEmpty then throw ((SyntaxError.of .noPredicateAfterWith).atLine line)
    else ExceptT.adapt (·.atLine line) (Predicate.listOfPositions platform tokens)

/-- Reads an action. Errors are on the line of its first token. -/
def actionOfPositions (platform : Platform φ ε) (tokens : List Token) : Attempt (Action α) :=
  tryCatch (Action.ofPositions platform tokens) fun error => do
    let first ← element tokens 0
    throw (error.atLine first.line)

/-- Reads a rule. The line of the last token is the last line, and the first
token on it divides the block. -/
def ofPositions (platform : Platform φ ε) (block : List Token) : Attempt (Rule α) := do
  let last ← element block (block.length - 1)
  let start := (block.findIdx? (·.line = last.line)).getD 0
  let action ← stretch block 0 start
  let onLine ← stretch block start block.length
  let keyword ← element onLine 0
  if !keyword.isKeyword .on then
    throw (((SyntaxError.of .noOnLine).atLine last.line).near keyword.text)
  else if action.isEmpty then
    throw ((SyntaxError.of .noActionBeforeOn).atLine last.line)
  else
    let rest ← stretch onLine 1 onLine.length
    let position := rest.findIdx? (·.isKeyword .with)
    let event ← stretch rest 0 (position.getD rest.length)
    if event.isEmpty then throw ((SyntaxError.of .noEventName).atLine last.line)
    else
      let predicates ← predicatesOfPositions platform last.line rest position
      let action ← actionOfPositions platform action
      return ⟨Token.phrase event, action, predicates, some last.line⟩

/-- What the last line says of the event stands before the position of `WITH`. -/
theorem stretch_event (tokens : List Token) :
    stretch tokens 0 ((tokens.findIdx? (·.isKeyword .with)).getD tokens.length)
      = settled (.ok (eventClause tokens).1) := by
  rw [eventClause, Token.cutAt_eq_map_findIdx?]
  cases hposition : tokens.findIdx? (·.isKeyword .with) with
  | none =>
    rw [Option.getD_none, stretch_before (Nat.le_refl _), List.take_length]
    rfl
  | some position =>
    have hlt := lt_length_of_findIdx? hposition
    rw [Option.getD_some, stretch_before (Nat.le_of_lt hlt)]
    rfl

theorem predicatesOfPositions_eq (platform : Platform φ ε) (line : Nat) (tokens : List Token) :
    predicatesOfPositions platform line tokens (tokens.findIdx? (·.isKeyword .with))
      = settled ((predicatesOfTokens platform (eventClause tokens).2).mapError
          (·.atLine line)) := by
  rw [eventClause, Token.cutAt_eq_map_findIdx?]
  cases hposition : tokens.findIdx? (·.isKeyword .with) with
  | none => rfl
  | some position =>
    have hlt := lt_length_of_findIdx? hposition
    rw [predicatesOfPositions, stretch_after hlt, settled_ok_bind, Option.map_some]
    cases hafter : tokens.drop (position + 1) with
    | nil => rfl
    | cons token rest =>
      rw [Predicate.listOfPositions_eq, adapt_settled]
      rfl

theorem actionOfPositions_eq (platform : Platform φ ε) (first : Token) (rest : List Token) :
    actionOfPositions (α := α) platform (first :: rest)
      = settled ((Action.ofTokens platform (first :: rest)).mapError
          (·.atLine first.line)) := by
  rw [actionOfPositions, Action.ofPositions_eq]
  cases Action.ofTokens (α := α) platform (first :: rest) <;> rfl

/-- The position of the first token on the last line divides a block. There is
one, as the last token is on that line. -/
theorem exists_findIdx?_line {block : List Token} {last : Token}
    (h : block.getLast? = some last) :
    ∃ start, block.findIdx? (·.line = last.line) = some start ∧ start < block.length
      ∧ Block.ofTokens block = ⟨block.take start, block.drop start, last.line⟩ := by
  have hsome : (block.findIdx? (·.line = last.line)).isSome := by
    rw [List.findIdx?_isSome, List.any_eq_true]
    exact ⟨last, List.mem_of_getLast? h, decide_eq_true rfl⟩
  obtain ⟨start, hstart⟩ := Option.isSome_iff_exists.1 hsome
  refine ⟨start, hstart, lt_length_of_findIdx? hstart, ?_⟩
  have hindex : block.findIdx (fun token => !decide (token.line ≠ last.line)) = start := by
    simpa using (List.findIdx?_eq_some_iff_findIdx_eq.1 hstart).2
  rw [Block.ofTokens_of_getLast? h, List.takeWhile_eq_take_findIdx_not,
    List.dropWhile_eq_drop_findIdx_not, hindex]

/-- A block has a last token, and so it has a last line, which has a first
token. -/
theorem ofPositions_eq (platform : Platform φ ε) {block : List Token} (hne : block ≠ []) :
    ofPositions (α := α) platform block = settled (ofBlock platform block) := by
  have hlast : block.getLast? = some (block.getLast hne) := List.getLast?_eq_some_getLast hne
  generalize block.getLast hne = last at hlast
  have helement : element block (block.length - 1) = settled (.ok last) := by
    rw [element, ← List.getLast?_eq_getElem?, hlast]
    rfl
  obtain ⟨start, hstart, hlt, hblock⟩ := exists_findIdx?_line hlast
  obtain ⟨keyword, rest, honLine⟩ :=
    List.exists_cons_of_ne_nil (fun hnil => Nat.not_le_of_lt hlt (List.drop_eq_nil_iff.1 hnil))
  have hrest : stretch (keyword :: rest) 1 (keyword :: rest).length = settled (.ok rest) :=
    stretch_after (Nat.le_add_left 1 rest.length)
  rw [honLine] at hblock
  rw [ofPositions, ofBlock, hblock, triggerOfTokens]
  simp only [helement, settled_ok_bind, hstart, Option.getD_some, stretch_before (Nat.le_of_lt hlt),
    stretch_after (Nat.le_of_lt hlt), honLine, element_zero]
  -- The refusals come in the same order: no `ON`, no action, no event.
  by_cases hkey : keyword.isKeyword .on
  · cases haction : block.take start with
    | nil =>
      simp only [hkey]
      rfl
    | cons first others =>
      simp only [hkey, hrest, settled_ok_bind, stretch_event, predicatesOfPositions_eq,
        actionOfPositions_eq]
      cases hevent : (eventClause rest).1 with
      | nil => rfl
      | cons word words =>
        -- The predicates are read before the action.
        cases predicatesOfTokens platform (eventClause rest).2 with
        | error error => rfl
        | ok predicates => cases Action.ofTokens (α := α) platform (first :: others) <;> rfl
  · simp only [hkey]
    rfl

-- A block without tokens has no last one. Scripts have no such blocks.
example (platform : Platform φ ε) :
    (ofPositions (α := α) platform []).run = .error .outside := by
  rfl

/-- Reads the rules of blocks, the first of them being the rule of a number. -/
def listOfPositions (platform : Platform φ ε) (number : Nat) :
    List (List Token) → Attempt (List (Rule α))
  | [] => pure []
  | block :: rest => do
    let rule ← ExceptT.adapt (·.inRule number) (ofPositions platform block)
    let rules ← listOfPositions platform (number + 1) rest
    return rule :: rules

theorem listOfPositions_eq (platform : Platform φ ε) (number : Nat) {blocks : List (List Token)}
    (h : ∀ block ∈ blocks, block ≠ []) :
    listOfPositions (α := α) platform number blocks
      = settled (listOfBlocks platform number blocks) := by
  induction blocks generalizing number with
  | nil => rfl
  | cons block blocks ih =>
    obtain ⟨hblock, hblocks⟩ := List.forall_mem_cons.1 h
    rw [listOfPositions, listOfBlocks, ofPositions_eq platform hblock, ih (number + 1) hblocks]
    cases ofBlock (α := α) platform block with
    | error error => rfl
    | ok rule => cases listOfBlocks (α := α) platform (number + 1) blocks <;> rfl

end Rule

/-- Reads the rules of all blocks. -/
def Ruleset.ofPositions {φ α ε : Type} [Host φ α ε] (platform : Platform φ ε)
    (tokens : List Token) : Attempt (Ruleset α) := do
  let rules ← Rule.listOfPositions platform 1 (Block.split tokens)
  return ⟨rules⟩

namespace Platform

variable {φ α ε : Type} [Host φ α ε]

/-- Reading by positions never strays. It ends with what the readers of the
grammar give, a result or a syntax error. -/
structure ReadsWithin (platform : Platform φ ε) (tokens : List Token) : Prop where
  /-- The tokens as a script. -/
  ruleset : (Ruleset.ofPositions platform tokens).run
    = .ok (Ruleset.ofTokens platform tokens)
  /-- The tokens as one action. -/
  action : (Action.ofPositions platform (Token.content tokens)).run
    = .ok (Action.read platform tokens)
  /-- The tokens as one predicate. -/
  predicate : (Predicate.ofPositions platform (Token.content tokens)).run
    = .ok (Predicate.read platform tokens)
  /-- The tokens as what follows an `IF`. The actions to read in turn are fewer. -/
  fewer : ∀ clauses, Clauses.ofTokens tokens = .ok clauses →
    clauses.body.length < tokens.length
      ∧ ∀ otherwise ∈ clauses.otherwise, otherwise.length < tokens.length

/-- Any tokens are read without going astray. -/
theorem readsWithin (platform : Platform φ ε) (tokens : List Token) :
    platform.ReadsWithin tokens where
  ruleset := by
    rw [Ruleset.ofPositions, Ruleset.ofTokens,
      Rule.listOfPositions_eq platform 1 fun _ hblock => (Block.mem_split hblock).1]
    cases Rule.listOfBlocks (α := α) platform 1 (Block.split tokens) <;> rfl
  action := by rw [Action.ofPositions_eq, run_settled, Action.read]
  predicate := by rw [Predicate.ofPositions_eq, run_settled, Predicate.read]
  fewer _ h := Clauses.length_of_ofTokens h

end Platform

end EventRules

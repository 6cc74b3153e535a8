/-!
# `EventRules.Value.StringSet`: finite sets of strings

A set is its members in ascending order. So two sets with the same
members are equal (`eq_of_mem_iff`), and the order and repetition of
the strings that a set is made from leave no trace (`mem_ofList`).
-/

set_option autoImplicit false

namespace EventRules

/-- A finite set of strings. -/
structure StringSet where
  /-- The members, in ascending order. -/
  toList : List String
  ascending : toList.Pairwise (· < ·)
  deriving DecidableEq

namespace StringSet

/-- Puts a string in its place in an ascending list that lacks it. -/
def insertOrdered (s : String) : List String → List String
  | [] => [s]
  | t :: rest =>
    if s < t then s :: t :: rest
    else if t < s then t :: insertOrdered s rest
    else t :: rest

theorem mem_insertOrdered {s u : String} {l : List String} :
    u ∈ insertOrdered s l ↔ u = s ∨ u ∈ l := by
  induction l with
  | nil => simp [insertOrdered]
  | cons t rest ih =>
    simp only [insertOrdered]
    split
    · simp
    · next hst =>
      split
      · simp only [List.mem_cons, ih]
        exact or_left_comm
      · next hts =>
        obtain rfl : s = t := String.le_antisymm (String.not_lt.1 hts) (String.not_lt.1 hst)
        simp

theorem pairwise_insertOrdered {s : String} {l : List String} (h : l.Pairwise (· < ·)) :
    (insertOrdered s l).Pairwise (· < ·) := by
  induction l with
  | nil => simp [insertOrdered]
  | cons t rest ih =>
    have ⟨hhead, htail⟩ := List.pairwise_cons.1 h
    simp only [insertOrdered]
    split
    · next hst =>
      refine List.pairwise_cons.2 ⟨fun u hu => ?_, h⟩
      rcases List.mem_cons.1 hu with rfl | hu
      · exact hst
      · exact String.lt_trans hst (hhead u hu)
    · split
      · next hts =>
        refine List.pairwise_cons.2 ⟨fun u hu => ?_, ih htail⟩
        rcases mem_insertOrdered.1 hu with rfl | hu
        · exact hts
        · exact hhead u hu
      · exact h

/-- The empty set. -/
def empty : StringSet := ⟨[], .nil⟩

/-- The set with one more member. -/
def insert (s : String) (set : StringSet) : StringSet :=
  ⟨insertOrdered s set.toList, pairwise_insertOrdered set.ascending⟩

/-- The set of the listed strings. -/
def ofList (l : List String) : StringSet :=
  l.foldl (fun set s => set.insert s) empty

instance : Membership String StringSet where
  mem set s := s ∈ set.toList

instance (s : String) (set : StringSet) : Decidable (s ∈ set) :=
  inferInstanceAs (Decidable (s ∈ set.toList))

/-- A string is a member after an insertion if it was one or is the one
inserted. -/
theorem mem_insert {s u : String} {set : StringSet} : u ∈ set.insert s ↔ u = s ∨ u ∈ set :=
  mem_insertOrdered

theorem not_mem_empty (u : String) : u ∉ empty :=
  List.not_mem_nil

/-- The members of a set made from a list are those of the list. -/
theorem mem_ofList {u : String} {l : List String} : u ∈ ofList l ↔ u ∈ l := by
  have key : ∀ (l : List String) (set : StringSet),
      u ∈ l.foldl (fun set s => set.insert s) set ↔ u ∈ set ∨ u ∈ l := by
    intro l
    induction l with
    | nil => simp
    | cons s rest ih =>
      intro set
      rw [List.foldl_cons, ih, mem_insert, List.mem_cons, or_assoc]
      exact or_left_comm
  rw [ofList, key]
  exact ⟨fun h => h.resolve_left (not_mem_empty u), Or.inr⟩

theorem list_eq_of_mem_iff {l m : List String} (hl : l.Pairwise (· < ·))
    (hm : m.Pairwise (· < ·)) (h : ∀ u, u ∈ l ↔ u ∈ m) : l = m := by
  induction l generalizing m with
  | nil => exact (List.eq_nil_iff_forall_not_mem.2 fun u hu => by simpa using (h u).2 hu).symm
  | cons a l ih =>
    cases m with
    | nil => simpa using (h a).1 List.mem_cons_self
    | cons b m =>
      have ⟨hal, htail⟩ := List.pairwise_cons.1 hl
      have ⟨hbm, hmtail⟩ := List.pairwise_cons.1 hm
      have hab : a = b := by
        rcases List.mem_cons.1 ((h a).1 List.mem_cons_self) with hab | ha
        · exact hab
        rcases List.mem_cons.1 ((h b).2 List.mem_cons_self) with hba | hb
        · exact hba.symm
        exact absurd (String.lt_trans (hal b hb) (hbm a ha)) (String.lt_irrefl a)
      subst hab
      refine congrArg (a :: ·) (ih htail hmtail fun u => ?_)
      have hu := h u
      simp only [List.mem_cons] at hu
      by_cases hua : u = a
      · subst hua
        exact ⟨fun hmem => absurd (hal u hmem) (String.lt_irrefl u),
          fun hmem => absurd (hbm u hmem) (String.lt_irrefl u)⟩
      · simpa [hua] using hu

/-- Sets with the same members are equal. -/
theorem eq_of_mem_iff {set other : StringSet} (h : ∀ u, u ∈ set ↔ u ∈ other) : set = other := by
  have hlist := list_eq_of_mem_iff set.ascending other.ascending h
  cases set
  cases other
  simpa using hlist

end StringSet

end EventRules

import EventRules.Event
import EventRules.Proofs.Value.Coercion
import Mathlib.Data.List.Induction
import Mathlib.Data.List.Nodup

/-!
# `EventRules.Proofs.Event.Writes`: declared properties and what is stored in them

An event is a list of declarations in which a name that comes again replaces the
kind and not the place. Each name is there once then, so a name is one property
(`Event.property?_ofProperties`).

The arguments of an occurrence go through a history of stores: values put under
a name as they are, and writes through properties, some of which are refused.
`Store.leaves?` is what a store leaves in the arguments, if anything.

* `Store.args_perform`: a store that leaves nothing leaves the arguments alone.
* `Args.get?_after`: what is under a name is the last entry of the history.
* `Event.keepsWrites_ofProperties`: so a property reads back what was last
  written through it. A read coerces once more, which changes nothing.
-/

set_option autoImplicit false

namespace EventRules

/-! ### Declarations -/

namespace Event

/-- A name that is declared again keeps its place. -/
theorem map_name_replaceOrAppend (property : Property) (properties : List Property) :
    (replaceOrAppend property properties).map (·.name)
      = if property.name ∈ properties.map (·.name) then properties.map (·.name)
        else properties.map (·.name) ++ [property.name] := by
  induction properties with
  | nil => rfl
  | cons first rest ih =>
    rw [replaceOrAppend]
    by_cases hname : first.name = property.name
    · simp [hname]
    · have hname' : property.name ≠ first.name := fun heq => hname heq.symm
      rw [if_neg hname, List.map_cons, ih, List.map_cons]
      simp only [List.mem_cons, hname', false_or]
      split <;> rfl

/-- A declaration is what its name stands for, and changes no other. -/
theorem find?_replaceOrAppend (property : Property) (properties : List Property) (name : String) :
    (replaceOrAppend property properties).find? (·.name = name)
      = if property.name = name then some property else properties.find? (·.name = name) := by
  induction properties with
  | nil =>
    rw [replaceOrAppend, List.find?_singleton]
    simp only [decide_eq_true_eq, List.find?_nil]
  | cons first rest ih =>
    rw [replaceOrAppend]
    by_cases hname : first.name = property.name
    · rw [if_pos hname, List.find?_cons, List.find?_cons, hname]
      by_cases hsame : property.name = name <;> simp [hsame]
    · rw [if_neg hname, List.find?_cons, List.find?_cons, ih]
      by_cases hfirst : first.name = name
      · have hother : property.name ≠ name := fun heq => hname (hfirst.trans heq.symm)
        simp [hfirst, hother]
      · simp [hfirst]

theorem ofProperties_concat (name : String) (declared : List Property) (property : Property) :
    ofProperties name (declared ++ [property]) = (ofProperties name declared).declare property :=
  List.foldl_concat _ _ _ _

/-- Only the first of the same names is kept. -/
theorem eraseDups_concat (names : List String) (name : String) :
    (names ++ [name]).eraseDups
      = if name ∈ names then names.eraseDups else names.eraseDups ++ [name] := by
  rw [List.eraseDups_append, List.removeAll, List.filter_singleton]
  by_cases h : name ∈ names
  · simp [h]
  · simp [h, List.eraseDups_cons]

/-- The names are in the order of their first declarations. The last declaration
is taken off, as it is applied to what those before it made. -/
theorem map_name_ofProperties (name : String) (declared : List Property) :
    (ofProperties name declared).properties.map (·.name)
      = (declared.map (·.name)).eraseDups := by
  induction declared using List.reverseRecOn with
  | nil => rfl
  | append_singleton declared property ih =>
    rw [ofProperties_concat, declare, map_name_replaceOrAppend, ih, List.map_append,
      List.map_singleton, eraseDups_concat]
    simp only [List.mem_eraseDups]

theorem nodup_eraseDups (names : List String) : names.eraseDups.Nodup := by
  induction names using List.reverseRecOn with
  | nil => exact List.nodup_nil
  | append_singleton names name ih =>
    rw [eraseDups_concat]
    split
    · exact ih
    · next h =>
      rw [← List.mem_eraseDups] at h
      rw [← List.concat_eq_append]
      exact List.Nodup.concat h ih

/-- A name stands for its last declaration. -/
theorem property?_ofProperties (name : String) (declared : List Property) (property : String) :
    (ofProperties name declared).property? property
      = declared.reverse.find? (·.name = property) := by
  induction declared using List.reverseRecOn with
  | nil => rfl
  | append_singleton declared last ih =>
    rw [ofProperties_concat, property?, declare, find?_replaceOrAppend, List.reverse_concat,
      List.find?_cons, ← ih, property?]
    by_cases hname : last.name = property <;> simp [hname]

theorem nodup_map_name_ofProperties (name : String) (declared : List Property) :
    ((ofProperties name declared).properties.map (·.name)).Nodup := by
  rw [map_name_ofProperties]
  exact nodup_eraseDups _

/-- A property is the last declaration of its name. -/
theorem find?_of_mem_ofProperties {name : String} {declared : List Property} {property : Property}
    (h : property ∈ (ofProperties name declared).properties) :
    declared.reverse.find? (·.name = property.name) = some property := by
  have hsome : ((ofProperties name declared).property? property.name).isSome :=
    List.find?_isSome.2 ⟨property, h, by rw [decide_eq_true_eq]⟩
  -- The lookup finds some property of the name, and there is only one.
  obtain ⟨found, hfound⟩ := Option.isSome_iff_exists.1 hsome
  have hname : found.name = property.name := by
    simpa using @List.find?_some _ _ found _ hfound
  rw [← property?_ofProperties name, hfound,
    List.inj_on_of_nodup_map (nodup_map_name_ofProperties name declared)
      (List.mem_of_find?_eq_some hfound) h hname]

end Event

/-! ### Writes -/

namespace Property

variable {property : Property} {value coerced : Value}

theorem run_store_of_coerce (h : property.kind.coerce value = some coerced) (args : Args) :
    (property.store value).run args = (.ok (), args.insert property.name coerced) := by
  rw [store, h]
  rfl

/-- A refused write leaves the arguments as they were. -/
theorem run_store_of_not_coerce (h : property.kind.coerce value = none) (args : Args) :
    (property.store value).run args
      = (.error ⟨property.name, property.kind, value.kind⟩, args) := by
  rw [store, h]
  rfl

theorem write_of_coerce (h : property.kind.coerce value = some coerced) (args : Args) :
    property.write value args = .ok (args.insert property.name coerced) := by
  rw [write, run_store_of_coerce h]

theorem write_of_not_coerce (h : property.kind.coerce value = none) (args : Args) :
    property.write value args = .error ⟨property.name, property.kind, value.kind⟩ := by
  rw [write, run_store_of_not_coerce h]

/-- A coerced value is read as it is. -/
theorem read_of_get? {args : Args} (h : property.kind.coerce value = some coerced)
    (hget : args.get? property.name = some coerced) : property.read args = some coerced := by
  rw [read, hget]
  exact Kind.coerce_coerce h

end Property

/-! ### Histories -/

/-- A change of the arguments. -/
inductive Store where
  /-- A value is put under a name as it is. -/
  | insert (name : String) (value : Value)
  /-- A value is written through a property. -/
  | write (property : Property) (value : Value)

namespace Store

/-- Makes the change, unless it is refused. -/
def perform : Store → ExceptT PropertyError (StateM Args) Unit
  | insert name value => modify (·.insert name value)
  | write property value => property.store value

/-- The name and the value that the store leaves in the arguments, if it is not
refused. -/
def leaves? : Store → Option (String × Value)
  | insert name value => some (name, value)
  | write property value => (property.kind.coerce value).map (property.name, ·)

/-- The store leaves nothing under the name. -/
def Avoids (store : Store) (name : String) : Prop :=
  ∀ entry ∈ store.leaves?, entry.1 ≠ name

/-- The arguments are changed by the entry alone. -/
theorem args_perform (store : Store) (args : Args) :
    (store.perform.run args).2
      = match store.leaves? with
        | some (name, value) => args.insert name value
        | none => args := by
  cases store with
  | insert name value => rfl
  | write property value =>
    rw [perform, leaves?]
    cases hcoerce : property.kind.coerce value with
    | none => rw [Property.run_store_of_not_coerce hcoerce, Option.map_none]
    | some coerced => rw [Property.run_store_of_coerce hcoerce, Option.map_some]

/-- What is under a name stays while stores avoid it. -/
theorem Avoids.get?_eq {store : Store} {name : String} (h : store.Avoids name) (args : Args) :
    (store.perform.run args).2.get? name = args.get? name := by
  rw [args_perform]
  cases hentry : store.leaves? with
  | none => rfl
  | some entry =>
    have hne : name ≠ entry.1 := fun heq => h entry hentry heq.symm
    exact Args.get?_insert_of_ne hne entry.2 args

end Store

namespace Args

/-- The arguments after the stores, one after the other. -/
def after (args : Args) (stores : List Store) : Args :=
  stores.foldl (fun args store => (store.perform.run args).2) args

theorem after_append (args : Args) (first second : List Store) :
    args.after (first ++ second) = (args.after first).after second :=
  List.foldl_append

/-- By induction on the stores: none of them changes what is under the name. -/
theorem get?_after_of_avoids {stores : List Store} {name : String}
    (h : ∀ store ∈ stores, store.Avoids name) (args : Args) :
    (args.after stores).get? name = args.get? name := by
  induction stores generalizing args with
  | nil => rfl
  | cons store stores ih =>
    obtain ⟨hstore, hstores⟩ := List.forall_mem_cons.1 h
    exact (ih hstores _).trans (hstore.get?_eq args)

/-- What is under a name is what was last left there. -/
theorem get?_after {before after : List Store} {store : Store} {name : String} {value : Value}
    (hentry : store.leaves? = some (name, value)) (h : ∀ later ∈ after, later.Avoids name)
    (args : Args) : (args.after (before ++ store :: after)).get? name = some value := by
  -- Whatever the history left before it, the store puts the entry on top.
  have hsplit : args.after (before ++ store :: after)
      = (store.perform.run (args.after before)).2.after after := after_append args before _
  rw [hsplit, get?_after_of_avoids h, Store.args_perform, hentry]
  exact get?_insert_self name value _

end Args

/-! ### The properties of an event -/

/-- The event has the properties that were declared, and what is written through
one of them is there until something else is stored under its name. -/
structure Event.KeepsWrites (event : Event) (declared : List Property) : Prop where
  /-- No two properties have the same name. -/
  distinct : (event.properties.map (·.name)).Nodup
  /-- They are in the order in which their names were first declared. -/
  order : event.properties.map (·.name) = (declared.map (·.name)).eraseDups
  /-- Each is the last declaration of its name. -/
  last : ∀ property ∈ event.properties,
    declared.reverse.find? (·.name = property.name) = some property
  /-- A write of a value that can have the kind succeeds. The property reads as
  the coerced value then, and other names are as before. -/
  succeeds : ∀ property ∈ event.properties, ∀ value coerced args,
    property.kind.coerce value = some coerced →
      ∃ written, (property.store value).run args = (.ok (), written)
        ∧ property.write value args = .ok written
        ∧ property.read written = some coerced ∧ coerced.kind = property.kind
        ∧ ∀ other, other ≠ property.name → written.get? other = args.get? other
  /-- A write of another value is refused. The arguments are as before, and the
  error names the property and both kinds. -/
  refuses : ∀ property ∈ event.properties, ∀ value args, property.kind.coerce value = none →
    (property.store value).run args = (.error ⟨property.name, property.kind, value.kind⟩, args)
      ∧ property.write value args = .error ⟨property.name, property.kind, value.kind⟩
  /-- Whatever was stored before, and under other names or refused since, a
  property reads back what was written through it. -/
  reads : ∀ property ∈ event.properties, ∀ value coerced (args : Args) (before after : List Store),
    property.kind.coerce value = some coerced →
      (∀ store ∈ after, store.Avoids property.name) →
        property.read (args.after (before ++ .write property value :: after)) = some coerced

namespace Event

theorem exists_run_store {property : Property} {value coerced : Value}
    (h : property.kind.coerce value = some coerced) (args : Args) :
    ∃ written, (property.store value).run args = (.ok (), written)
      ∧ property.write value args = .ok written
      ∧ property.read written = some coerced ∧ coerced.kind = property.kind
      ∧ ∀ other, other ≠ property.name → written.get? other = args.get? other := by
  refine ⟨_, Property.run_store_of_coerce h args, Property.write_of_coerce h args, ?_, ?_, ?_⟩
  · exact Property.read_of_get? h (Args.get?_insert_self property.name coerced args)
  · exact (Kind.coerce_eq_some_iff.1 h).kind_eq
  · exact fun other hother => Args.get?_insert_of_ne hother coerced args

/-- Any declarations make an event that keeps what is written. -/
theorem keepsWrites_ofProperties (name : String) (declared : List Property) :
    (ofProperties name declared).KeepsWrites declared where
  distinct := nodup_map_name_ofProperties name declared
  order := map_name_ofProperties name declared
  last _ := find?_of_mem_ofProperties
  succeeds _ _ _ _ args h := exists_run_store h args
  refuses _ _ _ args h :=
    ⟨Property.run_store_of_not_coerce h args, Property.write_of_not_coerce h args⟩
  reads property _ value coerced args before after h havoids := by
    have hentry : (Store.write property value).leaves? = some (property.name, coerced) := by
      rw [Store.leaves?, h, Option.map_some]
    exact Property.read_of_get? h (Args.get?_after hentry havoids args)

end Event

end EventRules

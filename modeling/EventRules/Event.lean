import EventRules.Event.Args

/-!
# `EventRules.Event`: events and their properties

An event declares named properties, each of one kind. A property is
written to and read from the arguments of an occurrence; both go through
`Kind.coerce`, so what is read has the declared kind.
-/

set_option autoImplicit false

namespace EventRules

/-- A named place for values of one kind. -/
structure Property where
  name : String
  kind : Kind
  deriving DecidableEq, Repr

/-- A value was written to a property of another kind. -/
structure PropertyError where
  property : String
  /-- The kind of the property. -/
  expected : Kind
  /-- The kind of the value. -/
  found : Kind
  deriving DecidableEq, Repr

/-- The error in words. -/
def PropertyError.message (error : PropertyError) : String :=
  "property '" ++ error.property ++ "' expects " ++ error.expected.name
    ++ ", got " ++ error.found.name

namespace Property

/-- The property's value among the arguments, if there is one and it can
have the property's kind. -/
def read (property : Property) (args : Args) : Option Value :=
  args.get? property.name >>= property.kind.coerce

/-- Stores the value as the property's in the arguments at hand, if it can have
the property's kind. -/
def store (property : Property) (value : Value) : ExceptT PropertyError (StateM Args) Unit := do
  let some coerced := property.kind.coerce value
    | throw ⟨property.name, property.kind, value.kind⟩
  modify (·.insert property.name coerced)

/-- The arguments with the value stored as the property's. -/
def write (property : Property) (value : Value) (args : Args) :
    Except PropertyError Args :=
  match (property.store value).run args with
  | (.ok (), written) => .ok written
  | (.error error, _) => .error error

end Property

/-- A named list of properties. -/
structure Event where
  name : String
  /-- The properties in the order of their first declaration. -/
  properties : List Property
  deriving DecidableEq, Repr

namespace Event

/-- An event without properties. -/
def ofName (name : String) : Event :=
  ⟨name, []⟩

/-- Puts a property in the place of the first of its name, or at the
end. -/
def replaceOrAppend (property : Property) : List Property → List Property
  | [] => [property]
  | p :: rest =>
    if p.name = property.name then property :: rest
    else p :: replaceOrAppend property rest

/-- Declares a property. A name that is declared again keeps its place
and changes its kind. -/
def declare (property : Property) (event : Event) : Event :=
  { event with properties := replaceOrAppend property event.properties }

/-- The event with the properties declared one after the other. -/
def ofProperties (name : String) (properties : List Property) : Event :=
  properties.foldl (fun event property => event.declare property) (ofName name)

/-- The property of a name. -/
def property? (event : Event) (name : String) : Option Property :=
  event.properties.find? (·.name = name)

end Event

end EventRules

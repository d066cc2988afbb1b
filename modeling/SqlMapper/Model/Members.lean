import SqlMapper.Model.Supertypes

/-!
# Members

What can stand behind a dot: the fields of a type and the properties that its methods give access
to, inherited ones included. Of several members of one name the first in the order of search
counts.

## Main definitions

* `Introspector`: what completion needs to know about types.
* `TypeModel.allFields`, `TypeModel.allMethods`: own and inherited members of a class.
* `TypeModel.introspector`: the members of the types of a model.
-/

namespace SqlMapper

/-- A named member and its type. -/
structure Member where
  name : String
  typeName : String
  deriving Repr, DecidableEq

/-- What completion needs to know about types, each given by name. -/
structure Introspector where
  /-- The fields of a type. -/
  fields : String → List Member
  /-- The properties of a type that methods give access to. -/
  accessors : String → List Member
  /-- Whether a type can have members. -/
  isStructured : String → Bool

/-- The items whose key is neither among those seen nor that of an earlier item. -/
def firstOfEach {α : Type} (key : α → String) : List String → List α → List α
  | _, [] => []
  | seen, a :: as =>
    if key a ∈ seen then firstOfEach key seen as else a :: firstOfEach key (key a :: seen) as

namespace TypeModel

/-- The own and inherited fields of a class. A field hides inherited ones of its name. -/
def allFields (m : TypeModel) (c : ClassDecl) : List FieldDecl :=
  firstOfEach (·.name) [] ((m.lineage c).flatMap (·.fields))

/-- The own and inherited methods of a class, all of them. -/
def allMethods (m : TypeModel) (c : ClassDecl) : List MethodDecl :=
  (m.lineage c).flatMap (·.methods)

/-- The property that a method gives access to: it takes no parameters and returns something. -/
def property? (method : MethodDecl) : Option Member :=
  if method.parameters.isEmpty then
    match propertyOfAccessor? method.name, method.returnType with
    | some name, some typeName => some ⟨name, typeName⟩
    | _, _ => none
  else none

/-- The fields of the type that a reference names. -/
def fieldMembers (m : TypeModel) (reference : String) : List Member :=
  match m.resolve? reference with
  | some c => (m.allFields c).map fun f => ⟨f.name, f.typeName⟩
  | none => []

/-- The properties of the type that a reference names. -/
def accessorMembers (m : TypeModel) (reference : String) : List Member :=
  match m.resolve? reference with
  | some c => firstOfEach (·.name) [] ((m.allMethods c).filterMap property?)
  | none => []

/-- The members of the types of a model. -/
def introspector (m : TypeModel) : Introspector where
  fields := m.fieldMembers
  accessors := m.accessorMembers
  isStructured := fun reference => (m.resolve? reference).isSome

end TypeModel

end SqlMapper

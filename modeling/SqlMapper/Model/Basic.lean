import SqlMapper.Model.Declaration
import SqlMapper.Table

/-!
# Type models

The classes known to a project, with an index by qualified and one by unqualified name. A class
that comes in again replaces the one of its name, in its place.

## Main definitions

* `TypeModel.add`, `TypeModel.extend`, `TypeModel.ofClasses`: building a model.
* `TypeModel.resolve?`: the class that a reference names.
-/

namespace SqlMapper

/-- Classes in order of arrival, indexed by name. -/
structure TypeModel where
  classes : List ClassDecl
  /-- The place of the class of each qualified name. -/
  byName : Table String Nat
  /-- The place of the class of each unqualified name, or `none` if several classes have it. -/
  bySimpleName : Table String (Option Nat)

namespace TypeModel

/-- The model without classes. -/
def empty : TypeModel :=
  ⟨[], Table.empty, Table.empty⟩

instance : Inhabited TypeModel :=
  ⟨empty⟩

/-- The index by unqualified name with one more class at a place. -/
def noteSimpleName (index : Table String (Option Nat)) (name : String) (place : Nat) :
    Table String (Option Nat) :=
  if index.contains name then index.insert name none else index.insert name (some place)

/-- The model with one more class, or with the class of that name replaced. -/
def add (m : TypeModel) (c : ClassDecl) : TypeModel :=
  match m.byName.get? c.name with
  | some place => { m with classes := m.classes.set place c }
  | none =>
    let place := m.classes.length
    ⟨m.classes ++ [c], m.byName.insert c.name place,
      noteSimpleName m.bySimpleName c.simpleName place⟩

/-- The model with more classes, one after the other. -/
def extend (m : TypeModel) (classes : List ClassDecl) : TypeModel :=
  classes.foldl add m

/-- The model of these classes. -/
def ofClasses (classes : List ClassDecl) : TypeModel :=
  empty.extend classes

/-- The number of classes. -/
def size (m : TypeModel) : Nat :=
  m.classes.length

/-- Whether the model has no classes. -/
def isEmpty (m : TypeModel) : Bool :=
  m.classes.isEmpty

/-- The class that a reference names, blanks around it aside: the class of that name or, for an
unqualified name, the only class that has it. Instances of generic types and arrays name no
class. -/
def resolve? (m : TypeModel) (reference : String) : Option ClassDecl :=
  let name := Text.trim reference
  if name = "" || name.toList.any (fun c => c == '<' || c == '[') then none
  else
    match m.byName.get? name with
    | some place => m.classes[place]?
    | none =>
      if name.toList.contains '.' then none
      else
        match m.bySimpleName.get? name with
        | some (some place) => m.classes[place]?
        | _ => none

end TypeModel

end SqlMapper

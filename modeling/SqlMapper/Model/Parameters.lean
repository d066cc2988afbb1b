import SqlMapper.Model.Members

/-!
# Parameters of statements

A statement belongs to a method of the interface that its document names. The parameters that the
statement can use are those of the method; an annotation may give them another name.

## Main definitions

* `TypeModel.mapperMethod?`: the method that a statement belongs to.
* `Parameter`: a parameter of that method.
* `TypeModel.declaredParameters`: the parameters of a method.
-/

namespace SqlMapper

/-- An annotation that names a parameter; without a value the declared name stands. -/
structure Rename where
  value : Option String
  deriving Repr, DecidableEq

/-- A parameter of the method that a statement belongs to. -/
structure Parameter where
  name : String
  typeName : String
  /-- The annotation that makes the parameter usable, if there is one. -/
  rename : Option Rename
  deriving Repr, DecidableEq

/-- Whether an annotation of this name is the one with the given qualified name. An unqualified
name stands for the qualified one that ends with it. -/
def isRenaming (name qualified : String) : Bool :=
  if name.toList.contains '.' then name == qualified else name == simpleName qualified

/-- The first annotation of a parameter that renames it. -/
def ParameterDecl.rename? (p : ParameterDecl) (qualified : String) : Option Rename :=
  (p.annotations.find? fun a => isRenaming a.name qualified).map fun a => ⟨a.value⟩

namespace TypeModel

/-- The method that a statement belongs to: the first of its id in the interface that the
namespace names. -/
def mapperMethod? (m : TypeModel) (namespaceName id : String) : Option MethodDecl := do
  let c ← m.resolve? namespaceName
  (m.allMethods c).find? fun method => method.name == id

end TypeModel

/-- The parameters of a method, with the annotation of the given name. -/
def MethodDecl.declaredParameters (method : MethodDecl) (qualified : String) : List Parameter :=
  method.parameters.map fun p => ⟨p.name, p.typeName, p.rename? qualified⟩

end SqlMapper

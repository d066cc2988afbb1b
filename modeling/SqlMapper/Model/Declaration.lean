import SqlMapper.Chars.LowerCase
import SqlMapper.Text

/-!
# Declarations

The classes that a type model describes, with their fields, methods, parameters and annotations.
Types are referred to by name.

## Main definitions

* `ClassDecl`, `FieldDecl`, `MethodDecl`, `ParameterDecl`, `AnnotationDecl`: declarations.
* `simpleName`: the unqualified part of a name.
* `propertyOfAccessor?`: the property that a method gives access to.
-/

namespace SqlMapper

/-- An annotation of a parameter, with its value if it has one. -/
structure AnnotationDecl where
  name : String
  value : Option String := none
  deriving Repr, DecidableEq

/-- A parameter of a method. -/
structure ParameterDecl where
  name : String
  typeName : String
  annotations : List AnnotationDecl := []
  deriving Repr, DecidableEq

/-- A method of a class. One that returns nothing has no return type. -/
structure MethodDecl where
  name : String
  returnType : Option String := none
  parameters : List ParameterDecl := []
  deriving Repr, DecidableEq

/-- A field of a class. -/
structure FieldDecl where
  name : String
  typeName : String
  deriving Repr, DecidableEq

/-- A class or an interface, under its qualified name. -/
structure ClassDecl where
  name : String
  superclass : Option String := none
  interfaces : List String := []
  fields : List FieldDecl := []
  methods : List MethodDecl := []
  deriving Repr, DecidableEq

/-- The part of a qualified name behind its last dot. -/
def simpleName (name : String) : String :=
  String.ofList (Chars.afterLast (· == '.') name.toList)

/-- The unqualified name of a class. -/
def ClassDecl.simpleName (c : ClassDecl) : String :=
  SqlMapper.simpleName c.name

/-- The property whose value a method of this name returns: what stands behind `get` or `is`, with
its first character in lower case. -/
def propertyOfAccessor? (method : String) : Option String :=
  let rest := match Text.stripStart? method "get" with
    | some rest => some rest
    | none => Text.stripStart? method "is"
  match rest.map String.toList with
  | some (c :: cs) => some (String.ofList (Chars.lower c ++ cs))
  | _ => none

end SqlMapper

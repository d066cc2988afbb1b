import SqlMapper.Document.Basic

/-!
# Resolving result maps

A statement refers to a result map by its id. The id is looked up in the document of the statement
first and then in the other mapper documents of the same namespace, in the order of the project.
Documents without a namespace share the missing one.

## Main definitions

* `ResultMapTarget`: a result map and the document that defines it.
* `resolveResultMap?`: the result map that an id stands for in a document.
* `ResultMapTarget.references`: the references from an attribute value to a result map.
-/

namespace SqlMapper

/-- A result map and the document that defines it. -/
structure ResultMapTarget where
  document : Document
  definition : ResultMap
  deriving Repr, DecidableEq

/-- The result map of a document with this id, with the document. -/
def Document.target? (d : Document) (id : String) : Option ResultMapTarget :=
  (d.resultMap? id).map fun definition => ⟨d, definition⟩

/-- Whether the result maps of `other` can be referred to in `current`. -/
def Document.sharesWith (current other : Document) : Bool :=
  other.uri ≠ current.uri && other.isMapper && other.namespaceName = current.namespaceName

/-- The result map that an id stands for in the document `current` of a project. -/
def resolveResultMap? (id : String) (current : Document) (project : List Document) :
    Option ResultMapTarget :=
  if !current.isMapper then none
  else
    match current.target? id with
    | some target => some target
    | none => (project.filter current.sharesWith).findSome? fun other => other.target? id

/-- A reference from a place in a document to an element of some document. -/
structure Reference where
  source : Span
  file : FileUri
  target : Span
  deriving Repr, DecidableEq

namespace ResultMapTarget

/-- The file that defines the result map. -/
def uri (t : ResultMapTarget) : FileUri :=
  t.document.uri

/-- The id by which the result map can be referred to, if it is not empty. -/
def id? (t : ResultMapTarget) : Option String :=
  if t.definition.id = "" then none else some t.definition.id

/-- The references from an attribute value to the result map that it names. -/
def references (t : ResultMapTarget) (value : AttributeValue) : List Reference :=
  [⟨value.span, t.uri, t.definition.span⟩]

end ResultMapTarget

end SqlMapper

import SqlMapper.FileUri
import SqlMapper.Markup.Tree

/-!
# Mapper documents

What is kept of a document of mapped statements: its namespace, the result maps that it defines,
the statements with the result maps that they refer to, and the places needed to find what lies
under a caret. All of it is gathered in one pass over the elements, in document order.

## Main definitions

* `Document`: the summary of a document.
* `Document.ofRoot`: the summary of a tree of elements.
* `Document.parse`: the summary of a text.
-/

namespace SqlMapper

/-- The kinds of statements. -/
inductive StatementKind where
  | select
  | insert
  | update
  | delete
  deriving Repr, DecidableEq

namespace StatementKind

/-- The kind of the statements with this tag. -/
def ofTag? : String → Option StatementKind
  | "select" => some select
  | "insert" => some insert
  | "update" => some update
  | "delete" => some delete
  | _ => none

/-- The tag of the statements of a kind. -/
def tag : StatementKind → String
  | select => "select"
  | insert => "insert"
  | update => "update"
  | delete => "delete"

end StatementKind

/-- The value of an attribute and the place where it is written. -/
structure AttributeValue where
  value : String
  span : Span
  deriving Repr, DecidableEq

/-- A result map that a document defines. -/
structure ResultMap where
  id : String
  /-- The type that rows are mapped to, if it is given. -/
  typeName : Option String
  /-- The place of the whole element. -/
  span : Span
  /-- The place of the id. -/
  idSpan : Span
  deriving Repr, DecidableEq

/-- A statement of a document. -/
structure Statement where
  kind : StatementKind
  id : String
  span : Span
  /-- The result map that the statement refers to, if any. -/
  resultMap : Option AttributeValue
  deriving Repr, DecidableEq

/-- An element that has an id. -/
structure IdElement where
  tag : String
  id : String
  span : Span
  deriving Repr, DecidableEq

/-- What has been gathered from the elements of a document. -/
structure Summary where
  resultMaps : List ResultMap
  statements : List Statement
  idElements : List IdElement
  attributeSpans : List Span
  deriving Repr, DecidableEq

namespace Summary

/-- Nothing gathered yet. -/
def empty : Summary := ⟨[], [], [], []⟩

/-- Adds what an element with this id attribute defines. -/
def addDefinition (s : Summary) (e : Markup.Element) (id : Markup.Attribute) : Summary :=
  if e.tag = "resultMap" then
    { s with resultMaps :=
        s.resultMaps ++ [ResultMap.mk id.value (e.plainAttribute? "type") e.span id.span] }
  else
    match StatementKind.ofTag? e.tag with
    | some kind =>
      let reference := (e.attributeNamed? "resultMap").map fun a =>
        AttributeValue.mk a.value a.span
      { s with statements := s.statements ++ [Statement.mk kind id.value e.span reference] }
    | none => s

/-- Adds an element. Only elements with an id define anything. -/
def add (s : Summary) (e : Markup.Element) : Summary :=
  let s := { s with attributeSpans := s.attributeSpans ++ e.attributes.map (·.span) }
  match e.attributeNamed? "id" with
  | some id =>
    let s := { s with idElements := s.idElements ++ [IdElement.mk e.tag id.value e.span] }
    s.addDefinition e id
  | none => s

end Summary

/-- The summary of a document, with its uri and text. -/
structure Document where
  uri : FileUri
  text : String
  /-- The tag of the root element. -/
  rootTag : String
  /-- The interface that the statements belong to, if it is given. -/
  namespaceName : Option String
  summary : Summary
  deriving Repr, DecidableEq

namespace Document

/-- The result maps that the document defines, in order. -/
def resultMaps (d : Document) : List ResultMap := d.summary.resultMaps

/-- The statements of the document, in order. -/
def statements (d : Document) : List Statement := d.summary.statements

/-- The elements with an id, in order. -/
def idElements (d : Document) : List IdElement := d.summary.idElements

/-- The places of all attribute values, in order. -/
def attributeSpans (d : Document) : List Span := d.summary.attributeSpans

/-- The summary of a tree of elements. -/
def ofRoot (uri : FileUri) (text : String) (root : Markup.Element) : Document :=
  ⟨uri, text, root.tag, root.plainAttribute? "namespace",
    root.preorder.foldl Summary.add Summary.empty⟩

/-- A text that is no document, under its uri. -/
structure Malformed where
  uri : FileUri
  deriving Repr, DecidableEq

/-- What people are told about a malformed document. -/
def Malformed.message (e : Malformed) : String :=
  "Malformed XML in " ++ e.uri.text

/-- The document in a text. -/
def parse (uri : FileUri) (text : String) : Except Malformed Document :=
  match Markup.parse text with
  | .ok root => .ok (ofRoot uri text root)
  | .error _ => .error ⟨uri⟩

/-- Whether the document is one of mapped statements. -/
def isMapper (d : Document) : Bool :=
  d.rootTag == "mapper"

/-- The first result map with this id that the document defines. -/
def resultMap? (d : Document) (id : String) : Option ResultMap :=
  d.resultMaps.find? fun r => r.id == id

end Document

end SqlMapper

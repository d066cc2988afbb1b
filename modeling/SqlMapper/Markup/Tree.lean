import SqlMapper.Markup.Element
import SqlMapper.Markup.Reader

/-!
# The tree of a document

From the events of a document to its root element. Each tag is completed with its attributes,
whose names are resolved against the namespaces in scope, and each end tag is paired with the
latest open tag.

## Main definitions

* `Workbench.step`: the effect of one event.
* `parse`: the root element of a document.
-/

namespace SqlMapper.Markup

/-- The namespace of the names that start with `xml`. -/
def xmlNamespace : String := "http://www.w3.org/XML/1998/namespace"

/-- The namespace of namespace declarations. -/
def declarationNamespace : String := "http://www.w3.org/2000/xmlns/"

/-- Declared namespaces, the innermost first. The default one has no name. -/
abbrev Scope := List (Option String × String)

/-- An element whose end tag has not been met, with the children found so far, latest first. -/
structure OpenElement where
  name : QualifiedName
  attributes : List Attribute
  start : Nat
  scope : Scope
  children : List Element
  deriving Repr

/-- A tag that has begun: its name, and where it begins. -/
structure PendingTag where
  name : QualifiedName
  start : Nat
  deriving Repr

/-- What has been built from the events so far. -/
structure Workbench where
  /-- The elements that are open, innermost first. -/
  opened : List OpenElement
  /-- The finished elements that are in no other, latest first. -/
  roots : List Element
  /-- The latest tag of the entity being read, or of the document outside entities. -/
  tag : Option PendingTag
  /-- The latest tags around the entities being read. -/
  outerTags : List (Option PendingTag)
  /-- The attributes of the tag being read, latest first. -/
  attributes : List (QualifiedName × String × Span)
  /-- The namespaces declared in the tag being read, latest first. -/
  declared : Scope
  deriving Repr

namespace Workbench

/-- Nothing built yet. -/
def empty : Workbench := ⟨[], [], none, [], [], []⟩

/-- The namespaces in scope in the tag being read, if all its attributes have been met. -/
def scope (w : Workbench) : Scope :=
  w.declared.reverse ++ match w.opened with
    | [] => []
    | o :: _ => o.scope

/-- The namespace that a name is bound to. -/
def lookup (scope : Scope) (space : String) : Except Fault (Option String) :=
  let wanted := if space = "" then none else some space
  match scope.find? fun d => d.1 == wanted with
  | some d => .ok (some d.2)
  | none => if space = "" then .ok none else .error .unknownNamespace

/-- The attribute with its name resolved. A name without a namespace part is in no namespace. -/
def resolveAttribute (scope : Scope) (raw : QualifiedName × String × Span) :
    Except Fault Attribute := do
  let (name, value, span) := raw
  let space ←
    if name.space = "xml" then .ok (some xmlNamespace)
    else if name.space = "" then .ok none
    else lookup scope name.space
  .ok ⟨space, name.base, value, span⟩

/-- The attributes with their names resolved, no two of which may be the same. -/
def resolveAttributes (scope : Scope) :
    List (QualifiedName × String × Span) → List Attribute → Except Fault (List Attribute)
  | [], done => .ok done.reverse
  | raw :: rest, done => do
    let a ← resolveAttribute scope raw
    if done.any fun b => b.space == a.space && b.name == a.name then .error .repeatedAttribute
    resolveAttributes scope rest (a :: done)

/-- Records a namespace declared for names that start with `space`. -/
def declareNamed (w : Workbench) (space uri : String) : Except Fault Workbench :=
  if uri = declarationNamespace then .error .reservedNamespace
  else if (space == "xml") != (uri == xmlNamespace) then .error .reservedNamespace
  else if w.declared.any fun d => d.1 == some space then .error .repeatedNamespace
  else if uri = xmlNamespace then .ok w
  else .ok { w with declared := (some space, uri) :: w.declared }

/-- Records a namespace declared for names without a namespace part. -/
def declareDefault (w : Workbench) (uri : String) : Except Fault Workbench :=
  if uri = xmlNamespace || uri = declarationNamespace then .error .reservedNamespace
  else .ok { w with declared := (none, uri) :: w.declared }

/-- Records an attribute, or the namespace that it declares. -/
def addAttribute (w : Workbench) (name : QualifiedName) (value : String) (span : Span) :
    Except Fault Workbench :=
  if name.space = "xmlns" then w.declareNamed name.base value
  else if name.base = "xmlns" then w.declareDefault value
  else .ok { w with attributes := (name, value, span) :: w.attributes }

/-- Puts a finished element into the innermost open one. -/
def addElement (w : Workbench) (e : Element) : Workbench :=
  match w.opened with
  | [] => { w with roots := e :: w.roots }
  | o :: os => { w with opened := { o with children := e :: o.children } :: os }

/-- The tag being read, with its scope and resolved attributes, and the workbench without it. -/
def finishTag (w : Workbench) :
    Except Fault (PendingTag × Scope × List Attribute × Workbench) := do
  let some tag := w.tag | .error .unexpectedEndTag
  let scope := w.scope
  let attributes ← resolveAttributes scope w.attributes.reverse []
  .ok (tag, scope, attributes, { w with attributes := [], declared := [] })

/-- Pairs an end tag with the innermost open element. -/
def close (w : Workbench) (name : QualifiedName) (stop : Nat) : Except Fault Workbench :=
  match w.opened with
  | [] => .error .unexpectedEndTag
  | o :: os =>
    if o.name = name then
      .ok (addElement { w with opened := os }
        ⟨o.name.base, o.attributes, ⟨o.start, stop⟩, o.children.reverse⟩)
    else .error .unexpectedEndTag

/-- The workbench after one more event. -/
def step (w : Workbench) : Event → Except Fault Workbench
  | .tag name start =>
    if name.space = "xmlns" then .error .reservedNamespace
    else .ok { w with tag := some ⟨name, start⟩ }
  | .attribute name value span => w.addAttribute name value span
  | .tagOpen _ => do
    let (tag, scope, attributes, w) ← w.finishTag
    let _ ← lookup scope tag.name.space
    .ok { w with opened := ⟨tag.name, attributes, tag.start, scope, []⟩ :: w.opened }
  | .tagEmpty stop => do
    let (tag, scope, attributes, w) ← w.finishTag
    let _ ← lookup scope tag.name.space
    .ok (w.addElement ⟨tag.name.base, attributes, ⟨tag.start, stop⟩, []⟩)
  | .endTag name stop => do
    let (_, _, _, w) ← w.finishTag
    w.close name stop
  | .entityStart => .ok { w with tag := none, outerTags := w.tag :: w.outerTags }
  | .entityStop =>
    match w.outerTags with
    | [] => .ok w
    | tag :: tags => .ok { w with tag := tag, outerTags := tags }

/-- The first finished element, if no element is left open. -/
def root (w : Workbench) : Except Fault Element :=
  match w.opened, w.roots.reverse with
  | [], e :: _ => .ok e
  | _, _ => .error .incompleteRoot

end Workbench

/-- The root element of a document. -/
def parse (text : String) : Except Fault Element := do
  let events ← readEvents text.toList
  let w ← events.foldlM Workbench.step Workbench.empty
  w.root

end SqlMapper.Markup

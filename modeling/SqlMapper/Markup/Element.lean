import SqlMapper.Position

/-!
# Elements

The tree of elements of a document. An element knows its tag, its attributes with their values,
and the bytes of the text that it takes up; names are kept without their namespace part.

## Main definitions

* `Element`: an element with everything inside it.
* `Element.attributeNamed?`, `Element.plainAttribute?`: looking up attributes.
* `Element.preorder`: an element and all elements inside it, in document order.
-/

namespace SqlMapper.Markup

/-- An attribute of an element. -/
structure Attribute where
  /-- The namespace that the name is bound to; none for a name without one. -/
  space : Option String
  name : String
  value : String
  /-- The place of the written value, without its quotes. -/
  span : Span
  deriving Repr, DecidableEq

/-- An element, with the elements directly inside it. -/
structure Element where
  tag : String
  attributes : List Attribute
  span : Span
  children : List Element
  deriving Repr

namespace Element

/-- The first attribute with this name in any namespace. -/
def attributeNamed? (e : Element) (name : String) : Option Attribute :=
  e.attributes.find? fun a => a.name == name

/-- The value of the attribute with this name in no namespace. -/
def plainAttribute? (e : Element) (name : String) : Option String :=
  (e.attributes.find? fun a => a.space == none && a.name == name).map (·.value)

mutual

/-- The element and all elements inside it, in the order in which their tags begin. -/
def preorder : Element → List Element
  | e@⟨_, _, _, children⟩ => e :: preorderAll children

/-- The elements and all elements inside them, in order. -/
def preorderAll : List Element → List Element
  | [] => []
  | e :: es => preorder e ++ preorderAll es

end

end Element

end SqlMapper.Markup

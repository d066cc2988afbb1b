import SqlMapper.Document.Basic

/-!
# Under the caret

What a byte offset in a document points at: the statement around it, the reference that it
touches, and the text in front of it that is being typed.

## Main definitions

* `Document.enclosingStatement?`: the statement around an offset.
* `Document.referenceAt?`: the reference to a result map at an offset.
* `Document.caretFragment?`: the text being typed at an offset.
-/

namespace SqlMapper.Document

/-- The shortest of the elements, and the first of several as short. -/
def shortest? : List IdElement → Option IdElement
  | [] => none
  | e :: es =>
    match shortest? es with
    | some f => if f.span.length < e.span.length then some f else some e
    | none => some e

/-- The innermost element with an id around an offset. -/
def innermost? (d : Document) (offset : Nat) : Option IdElement :=
  shortest? (d.idElements.filter fun e => e.span.contains offset)

/-- The statement around an offset. There is none if the innermost element with an id is not a
statement, even inside one. -/
def enclosingStatement? (d : Document) (offset : Nat) : Option Statement := do
  let e ← d.innermost? offset
  let _ ← StatementKind.ofTag? e.tag
  d.statements.find? fun s => s.span = e.span

/-- The reference to a result map whose written value an offset touches. -/
def referenceAt? (d : Document) (offset : Nat) : Option AttributeValue :=
  (d.statements.filterMap (·.resultMap)).find? fun v => v.span.touches offset

/-- Whether a character separates the text being typed from what stands before it. -/
def endsFragment (c : Char) : Bool :=
  Chars.isBlank c || c == '<' || c == '>'

/-- The text being typed at an offset. In an attribute value it is everything from the opening
quote on; elsewhere it begins behind the last blank or angle bracket. There is none past the end
of the text and inside a character. -/
def caretFragment? (d : Document) (offset : Nat) : Option String := do
  let (before, _) ← Chars.splitAtByte? offset d.text.toList
  match d.attributeSpans.find? fun s => s.touches offset with
  | some span => (Chars.splitAtByte? span.start before).map fun p => String.ofList p.2
  | none => some (String.ofList (Chars.afterLast endsFragment before))

end SqlMapper.Document

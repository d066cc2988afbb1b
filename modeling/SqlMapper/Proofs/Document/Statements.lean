import Mathlib.Data.List.Basic
import SqlMapper.Document.Basic
import SqlMapper.Proofs.Markup.Tree

/-!
# Statements of a document

The statements of a document are those of its elements, in document order, and so are its records
of elements with an id. A reference to a result map is an attribute of the element of its
statement. Hence references have their places in the text of the document.

## Main definitions

* `Markup.Element.statement?`: the statement that an element defines.
* `Markup.Element.idElement?`: the record of an element that has an id.

## Main statements

* `Document.statements_ofRoot`, `Document.idElements_ofRoot`: what a document has, element by
  element.
* `Document.span_within_of_parse`: the places of references lie in the text.
-/

namespace SqlMapper

open Markup

/-- The statement that an element defines by its tag and its id. -/
def Markup.Element.statement? (e : Element) : Option Statement := do
  let id ← e.attributeNamed? "id"
  let kind ← StatementKind.ofTag? e.tag
  some ⟨kind, id.value, e.span,
    (e.attributeNamed? "resultMap").map fun a => AttributeValue.mk a.value a.span⟩

/-- The record of an element that has an id. -/
def Markup.Element.idElement? (e : Element) : Option IdElement :=
  (e.attributeNamed? "id").map fun id => IdElement.mk e.tag id.value e.span

namespace Summary

theorem statements_addDefinition (s : Summary) (e : Element) (id : Attribute) :
    (s.addDefinition e id).statements =
      s.statements ++ ((StatementKind.ofTag? e.tag).map fun kind => Statement.mk kind id.value
        e.span ((e.attributeNamed? "resultMap").map fun a =>
          AttributeValue.mk a.value a.span)).toList := by
  unfold addDefinition
  split
  · next htag =>
    -- The tag of result maps is not one of the tags of statements.
    simp [htag, StatementKind.ofTag?]
  · cases StatementKind.ofTag? e.tag <;> simp

theorem statements_add (s : Summary) (e : Element) :
    (s.add e).statements = s.statements ++ e.statement?.toList := by
  simp only [add, Element.statement?]
  cases e.attributeNamed? "id" with
  | none => simp
  | some id =>
    rw [statements_addDefinition]
    cases StatementKind.ofTag? e.tag <;> simp

theorem idElements_addDefinition (s : Summary) (e : Element) (id : Attribute) :
    (s.addDefinition e id).idElements = s.idElements := by
  unfold addDefinition
  split
  · rfl
  · split <;> rfl

theorem idElements_add (s : Summary) (e : Element) :
    (s.add e).idElements = s.idElements ++ e.idElement?.toList := by
  simp only [add, Element.idElement?]
  cases e.attributeNamed? "id" with
  | none => simp
  | some id => simp [idElements_addDefinition]

/-- What every element adds at the end of a list is found there in the order of the elements. -/
theorem foldl_add {β : Type} {field : Summary → List β} {found : Element → List β}
    (hadd : ∀ s e, field (s.add e) = field s ++ found e) (es : List Element) (s : Summary) :
    field (es.foldl add s) = field s ++ es.flatMap found := by
  induction es generalizing s with
  | nil => simp
  | cons e es ih => rw [List.foldl_cons, ih, hadd, List.append_assoc, List.flatMap_cons]

end Summary

namespace Document

/-- A parsed document is the summary of the tree in its text. -/
theorem parse_eq_ok_iff {uri : FileUri} {text : String} {d : Document} :
    parse uri text = .ok d ↔ ∃ root, Markup.parse text = .ok root ∧ ofRoot uri text root = d := by
  unfold parse
  cases Markup.parse text <;> simp

theorem exists_of_toOption_parse {β : Type} {uri : FileUri} {text : String} {f : Document → β}
    {b : β} (h : (parse uri text).toOption.map f = some b) :
    ∃ d, parse uri text = .ok d ∧ f d = b := by
  cases hparse : parse uri text with
  | error e => simp [hparse, Except.toOption] at h
  | ok d => exact ⟨d, rfl, by simpa [hparse, Except.toOption] using h⟩

theorem statements_ofRoot (uri : FileUri) (text : String) (root : Element) :
    (ofRoot uri text root).statements = root.preorder.filterMap Element.statement? := by
  rw [List.filterMap_eq_flatMap_toList]
  exact Summary.foldl_add Summary.statements_add root.preorder Summary.empty

theorem idElements_ofRoot (uri : FileUri) (text : String) (root : Element) :
    (ofRoot uri text root).idElements = root.preorder.filterMap Element.idElement? := by
  rw [List.filterMap_eq_flatMap_toList]
  exact Summary.foldl_add Summary.idElements_add root.preorder Summary.empty

/-- The reference of a statement is an attribute of its element. -/
theorem exists_attribute_of_statement? {e : Element} {s : Statement} {v : AttributeValue}
    (hs : e.statement? = some s) (hv : s.resultMap = some v) :
    ∃ a ∈ e.attributes, a.span = v.span := by
  unfold Element.statement? at hs
  simp only [Option.bind_eq_bind, Option.bind_eq_some_iff, Option.some.injEq] at hs
  obtain ⟨id, -, kind, -, rfl⟩ := hs
  obtain ⟨a, ha, rfl⟩ := Option.map_eq_some_iff.1 hv
  exact ⟨a, List.mem_of_find?_eq_some ha, rfl⟩

/-- References to result maps have their places in the text. -/
theorem span_within_of_parse {uri : FileUri} {text : String} {d : Document}
    (hd : parse uri text = .ok d) {v : AttributeValue}
    (hv : v ∈ d.statements.filterMap (·.resultMap)) :
    v.span.Within (Text.byteLength text) := by
  obtain ⟨root, hroot, rfl⟩ := parse_eq_ok_iff.1 hd
  obtain ⟨s, hs, hsv⟩ := List.mem_filterMap.1 hv
  rw [statements_ofRoot] at hs
  obtain ⟨e, he, hes⟩ := List.mem_filterMap.1 hs
  obtain ⟨a, ha, hspan⟩ := exists_attribute_of_statement? hes hsv
  exact hspan ▸ ensures_parse text root hroot e he a ha

end Document

end SqlMapper

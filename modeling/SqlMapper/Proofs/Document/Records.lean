import Mathlib.Data.List.Forall2
import SqlMapper.Proofs.Document.Statements
import SqlMapper.Proofs.First
import SqlMapper.Proofs.Markup.Address

/-!
# Records in step

One pass over the elements of a document fills several lists. Each list holds what the elements
contribute to it, in document order, so that what is recorded in one list is found again in the
others: statements and result maps are elements with an id, and their places are places of
attribute values.

## Main definitions

* `Markup.Element.resultMap?`: the result map that an element defines.
* `Statement.idElement`, `ResultMap.idElement`: the records of elements with an id that belong to a
  statement and to a result map.
* `Document.Summarizes`: the lists of a document are in step with a tree of elements.

## Main statements

* `Document.resultMaps_ofRoot`, `Document.attributeSpans_ofRoot`: what a document has, element by
  element.
* `Document.summarizes_ofRoot`: the summary of every tree is in step with it.
* `Document.parse_summarizes`: so is every parsed document.
-/

namespace SqlMapper

open Markup

/-- The result map that an element defines by its tag and its id. -/
def Markup.Element.resultMap? (e : Element) : Option ResultMap := do
  let id ← e.attributeNamed? "id"
  if e.tag = "resultMap" then some ⟨id.value, e.plainAttribute? "type", e.span, id.span⟩ else none

/-- The record of the element of a statement. -/
def Statement.idElement (s : Statement) : IdElement :=
  ⟨s.kind.tag, s.id, s.span⟩

/-- The record of the element of a result map. -/
def ResultMap.idElement (r : ResultMap) : IdElement :=
  ⟨"resultMap", r.id, r.span⟩

namespace StatementKind

/-- The tags of statements. -/
def tags : List String :=
  ["select", "insert", "update", "delete"]

theorem ofTag?_tag (kind : StatementKind) : ofTag? kind.tag = some kind := by
  cases kind <;> rfl

theorem tag_of_ofTag? {tag : String} {kind : StatementKind} (h : ofTag? tag = some kind) :
    kind.tag = tag := by
  rw [ofTag?.eq_def] at h
  split at h <;> cases h <;> rfl

theorem mem_tags_iff {tag : String} : tag ∈ tags ↔ ∃ kind, ofTag? tag = some kind := by
  constructor
  · intro h
    simp only [tags, List.mem_cons, List.not_mem_nil, or_false] at h
    rcases h with rfl | rfl | rfl | rfl
    · exact ⟨_, ofTag?_tag select⟩
    · exact ⟨_, ofTag?_tag insert⟩
    · exact ⟨_, ofTag?_tag update⟩
    · exact ⟨_, ofTag?_tag delete⟩
  · rintro ⟨kind, hkind⟩
    rw [← tag_of_ofTag? hkind]
    cases kind <;> decide

end StatementKind

/-! ### What elements contribute -/

namespace Markup.Element

variable {e : Element}

theorem idElement?_eq_some_iff {r : IdElement} :
    e.idElement? = some r ↔
      ∃ a, IsFirst (fun x => x.name = "id") e.attributes a ∧
        (⟨e.tag, a.value, e.span⟩ : IdElement) = r := by
  simp only [idElement?, Option.map_eq_some_iff, attributeNamed?, find?_eq_some_iff_isFirst,
    beq_iff_eq]

theorem isSome_idElement?_iff :
    e.idElement?.isSome = true ↔ ∃ a ∈ e.attributes, a.name = "id" := by
  simp [idElement?, attributeNamed?]

theorem map_idElement_statement? (e : Element) :
    e.statement?.map Statement.idElement =
      e.idElement?.filter fun r => r.tag ∈ StatementKind.tags := by
  simp only [statement?, idElement?]
  cases e.attributeNamed? "id" with
  | none => rfl
  | some id =>
    rw [Option.map_some, Option.filter_some]
    cases hkind : StatementKind.ofTag? e.tag with
    | none =>
      have htag : e.tag ∉ StatementKind.tags := by simp [StatementKind.mem_tags_iff, hkind]
      rw [if_neg (by simpa using htag)]
      rfl
    | some kind =>
      have htag : e.tag ∈ StatementKind.tags := StatementKind.mem_tags_iff.2 ⟨kind, hkind⟩
      rw [if_pos (by simpa using htag), ← StatementKind.tag_of_ofTag? hkind]
      rfl

theorem map_idElement_resultMap? (e : Element) :
    e.resultMap?.map ResultMap.idElement = e.idElement?.filter fun r => r.tag = "resultMap" := by
  simp only [resultMap?, idElement?]
  cases e.attributeNamed? "id" with
  | none => rfl
  | some id =>
    rw [Option.map_some, Option.filter_some]
    by_cases htag : e.tag = "resultMap" <;> simp [htag, ResultMap.idElement]

theorem exists_attribute_of_resultMap? {r : ResultMap} (h : e.resultMap? = some r) :
    ∃ a ∈ e.attributes, a.span = r.idSpan := by
  simp only [resultMap?, Option.bind_eq_bind, Option.bind_eq_some_iff,
    Option.ite_none_right_eq_some, Option.some.injEq] at h
  obtain ⟨id, hid, -, rfl⟩ := h
  exact ⟨id, List.mem_of_find?_eq_some hid, rfl⟩

end Markup.Element

namespace Summary

theorem resultMaps_add (s : Summary) (e : Element) :
    (s.add e).resultMaps = s.resultMaps ++ e.resultMap?.toList := by
  simp only [add, Element.resultMap?]
  cases e.attributeNamed? "id" with
  | none => simp
  | some id =>
    by_cases htag : e.tag = "resultMap"
    · simp [addDefinition, htag]
    · cases hkind : StatementKind.ofTag? e.tag <;> simp [addDefinition, htag, hkind]

theorem attributeSpans_add (s : Summary) (e : Element) :
    (s.add e).attributeSpans = s.attributeSpans ++ e.attributes.map (·.span) := by
  simp only [add]
  cases e.attributeNamed? "id" with
  | none => rfl
  | some id =>
    by_cases htag : e.tag = "resultMap"
    · simp [addDefinition, htag]
    · cases hkind : StatementKind.ofTag? e.tag <;> simp [addDefinition, htag, hkind]

end Summary

namespace Document

variable (uri : FileUri) (text : String) (root : Element)

theorem resultMaps_ofRoot :
    (ofRoot uri text root).resultMaps = root.preorder.filterMap Element.resultMap? := by
  rw [List.filterMap_eq_flatMap_toList]
  exact Summary.foldl_add Summary.resultMaps_add root.preorder Summary.empty

theorem attributeSpans_ofRoot :
    (ofRoot uri text root).attributeSpans =
      root.preorder.flatMap fun e => e.attributes.map (·.span) :=
  Summary.foldl_add Summary.attributeSpans_add root.preorder Summary.empty

variable {uri text root}

theorem mem_attributeSpans_of_mem {e : Element} (he : e ∈ root.preorder) {span : Span}
    (h : ∃ a ∈ e.attributes, a.span = span) : span ∈ (ofRoot uri text root).attributeSpans := by
  obtain ⟨a, ha, rfl⟩ := h
  rw [attributeSpans_ofRoot]
  exact List.mem_flatMap.2 ⟨e, he, List.mem_map_of_mem ha⟩

/-! ### Lists in step -/

/-- The record describes the element at an address, whose id is its first attribute with the local
name `id`. -/
def Describes (root : Element) (address : List Nat) (r : IdElement) : Prop :=
  ∃ e a, root.at? address = some e ∧ IsFirst (fun x => x.name = "id") e.attributes a ∧
    (⟨e.tag, a.value, e.span⟩ : IdElement) = r

/-- The lists of a document are in step with each other and with a tree. -/
structure Summarizes (d : Document) (root : Element) : Prop where
  /-- The elements that have an id are recorded in document order, each once. -/
  idElements : ∃ addresses : List (List Nat), addresses.Pairwise (· < ·) ∧
    (∀ p, p ∈ addresses ↔ ∃ e a, root.at? p = some e ∧ a ∈ e.attributes ∧ a.name = "id") ∧
    List.Forall₂ (Describes root) addresses d.idElements
  statements : d.statements.map Statement.idElement =
    d.idElements.filter fun e => e.tag ∈ StatementKind.tags
  resultMaps : d.resultMaps.map ResultMap.idElement =
    d.idElements.filter fun e => e.tag = "resultMap"
  idSpan_mem : ∀ r ∈ d.resultMaps, r.idSpan ∈ d.attributeSpans
  reference_mem : ∀ s ∈ d.statements, ∀ v, s.resultMap = some v → v.span ∈ d.attributeSpans

theorem forall₂_filterMap {α β : Type} (f : α → Option β) (l : List α) :
    List.Forall₂ (fun a b => f a = some b) (l.filter fun a => (f a).isSome) (l.filterMap f) := by
  induction l with
  | nil => exact .nil
  | cons a l ih =>
    cases ha : f a with
    | none =>
      rw [List.filterMap_cons_none ha, List.filter_cons_of_neg (by simp [ha])]
      exact ih
    | some b =>
      rw [List.filterMap_cons_some ha, List.filter_cons_of_pos (by simp [ha])]
      exact .cons ha ih

theorem idElements_eq_filterMap_addresses :
    (ofRoot uri text root).idElements =
      root.addresses.filterMap fun p => (root.at? p).bind Element.idElement? := by
  rw [idElements_ofRoot, ← Element.filterMap_addresses, List.filterMap_filterMap]

theorem isSome_bind_idElement?_iff {p : List Nat} :
    ((root.at? p).bind Element.idElement?).isSome = true ↔
      ∃ e a, root.at? p = some e ∧ a ∈ e.attributes ∧ a.name = "id" := by
  cases root.at? p with
  | none => simp
  | some e => simp [Element.isSome_idElement?_iff]

theorem summarizes_ofRoot (uri : FileUri) (text : String) (root : Element) :
    (ofRoot uri text root).Summarizes root where
  idElements := by
    refine ⟨root.addresses.filter fun p => ((root.at? p).bind Element.idElement?).isSome,
      root.pairwise_addresses.filter _, ?_, ?_⟩
    · intro p
      rw [List.mem_filter, isSome_bind_idElement?_iff, Element.mem_addresses]
      constructor
      · exact And.right
      · rintro ⟨e, a, he, ha⟩
        exact ⟨⟨e, he⟩, e, a, he, ha⟩
    · rw [idElements_eq_filterMap_addresses]
      refine (forall₂_filterMap _ root.addresses).imp fun p r hr => ?_
      obtain ⟨e, he, hr⟩ := Option.bind_eq_some_iff.1 hr
      obtain ⟨a, ha, rfl⟩ := Element.idElement?_eq_some_iff.1 hr
      exact ⟨e, a, he, ha, rfl⟩
  statements := by
    rw [statements_ofRoot, idElements_ofRoot, List.map_filterMap, List.filter_filterMap]
    simp only [Element.map_idElement_statement?]
  resultMaps := by
    rw [resultMaps_ofRoot, idElements_ofRoot, List.map_filterMap, List.filter_filterMap]
    simp only [Element.map_idElement_resultMap?]
  idSpan_mem := by
    intro r hr
    rw [resultMaps_ofRoot] at hr
    obtain ⟨e, he, her⟩ := List.mem_filterMap.1 hr
    exact mem_attributeSpans_of_mem he (Element.exists_attribute_of_resultMap? her)
  reference_mem := by
    intro s hs v hv
    rw [statements_ofRoot] at hs
    obtain ⟨e, he, hes⟩ := List.mem_filterMap.1 hs
    exact mem_attributeSpans_of_mem he (exists_attribute_of_statement? hes hv)

/-- The lists of a document stay in step. In the summary of any tree of elements, and so in every
parsed document: the records of elements with an id are those of all elements with an attribute of
the local name `id`, the root included, in document order; statements and result maps are those of
the records that have their tags, in the same order, with the same ids and places; and the places
of ids of result maps and of references to result maps are places of attribute values. -/
theorem parse_summarizes (uri : FileUri) (text : String) :
    (∀ root, (ofRoot uri text root).Summarizes root) ∧
      ∀ d, parse uri text = .ok d → ∃ root, Markup.parse text = .ok root ∧ d.Summarizes root := by
  refine ⟨summarizes_ofRoot uri text, fun d hd => ?_⟩
  obtain ⟨root, hroot, rfl⟩ := parse_eq_ok_iff.1 hd
  exact ⟨root, hroot, summarizes_ofRoot uri text root⟩

/-- A statement without an id, a result map inside a statement, and an id with a namespace. -/
def nestedText : String :=
  "<mapper xmlns:x='u' id='r'><select/><update x:id='b' resultMap='m'><resultMap id='m'/>" ++
    "</update><sql id='c'/></mapper>"

/-- Four elements have an id, the root among them. One is a statement and one a result map. -/
theorem parse_summarizes_nested :
    ∃ d root, parse ⟨"M.xml"⟩ nestedText = .ok d ∧ Markup.parse nestedText = .ok root ∧
      d.Summarizes root ∧ d.idElements.map (·.id) = ["r", "b", "m", "c"] ∧
      d.statements.map (·.id) = ["b"] ∧ d.resultMaps.map (·.id) = ["m"] := by
  have hparsed : (parse ⟨"M.xml"⟩ nestedText).toOption.map (fun d =>
      (d.idElements.map (·.id), d.statements.map (·.id), d.resultMaps.map (·.id))) =
        some (["r", "b", "m", "c"], ["b"], ["m"]) := by
    decide +kernel
  obtain ⟨d, hd, hrecords⟩ := exists_of_toOption_parse hparsed
  obtain ⟨helements, hrecords⟩ := Prod.mk.inj hrecords
  obtain ⟨hstatements, hmaps⟩ := Prod.mk.inj hrecords
  obtain ⟨root, hroot, hsummarizes⟩ := (parse_summarizes ⟨"M.xml"⟩ nestedText).2 d hd
  exact ⟨d, root, hd, hroot, hsummarizes, helements, hstatements, hmaps⟩

end Document

end SqlMapper

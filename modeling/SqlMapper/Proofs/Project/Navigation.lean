import SqlMapper.Proofs.Document.Statements
import SqlMapper.Proofs.LineIndex
import SqlMapper.Proofs.Project.Resolution
import SqlMapper.Proofs.Span

/-!
# Navigation and findings

Going to the definition of a reference and reporting the references that lead nowhere are two ways
to ask the same question. One starts from a position and has to find the reference under it, the
other goes through the references of a document. They agree wherever no caret can touch two
references at once.

## Main statements

* `Document.referenceAt?_eq_some`: the reference under a caret.
* `Project.definition?_position`: the definition of the reference under a caret.
* `Project.exists_finding_iff`: a reference is reported exactly if it has no place.
* `Project.definition?_agrees_diagnostics`: both together.
-/

namespace SqlMapper

namespace Document

variable {d : Document} {v : AttributeValue} {offset : Nat}

/-- A reference that a caret touches is the one that is found, if no two can be touched at once. -/
theorem referenceAt?_eq_some
    (hapart : (d.statements.filterMap (·.resultMap)).Pairwise fun v w => v.span.Apart w.span)
    (hv : v ∈ d.statements.filterMap (·.resultMap)) (htouches : v.span.touches offset = true) :
    d.referenceAt? offset = some v :=
  Span.find?_touches hapart hv htouches

end Document

namespace Project

variable {p : Project} {uri : FileUri} {entry : FileEntry} {d : Document} {v : AttributeValue}

/-- A place that an id leads to is in a file of the project. -/
theorem contains_of_resultMapLocation? {id : String} {location : Location}
    (h : p.resultMapLocation? uri id = some location) :
    p.registry.contains location.file = true := by
  obtain ⟨-, -, t, defining, -, -, -, hdefining, rfl⟩ := resultMapLocation?_eq_some_iff.1 h
  rw [Registry.contains_eq_isSome_get?, hdefining]
  rfl

/-- At every position of a reference, its definition is the place of the result map it names. -/
theorem definition?_position (h : p.registry.UpToDate)
    (hentry : p.registry.get? uri = some entry) (hlength : Text.byteLength entry.text < 2 ^ 32)
    (hd : entry.document = some d)
    (hapart : (d.statements.filterMap (·.resultMap)).Pairwise fun v w => v.span.Apart w.span)
    (hv : v ∈ d.statements.filterMap (·.resultMap)) {offset : Nat}
    (htouches : v.span.touches offset = true) :
    p.definition? uri (entry.lines.position offset) = p.resultMapLocation? uri v.value := by
  have hwithin := Document.span_within_of_parse (h.parse_eq_ok hentry hd) hv
  have hoffset : offset ≤ Text.byteLength entry.text :=
    Nat.le_trans (Span.touches_iff.1 htouches).2 hwithin.2
  have hback : entry.lines.offset? (entry.lines.position offset) = some offset := by
    rw [h.lines_eq hentry]
    exact LineIndex.offset?_position hoffset hlength
  simp [definition?, hentry, hd, hback, Document.referenceAt?_eq_some hapart hv htouches]

/-- A reference is reported exactly if the id that it names has no place. -/
theorem exists_finding_iff (h : p.registry.UpToDate) (hentry : p.registry.get? uri = some entry)
    (hlength : Text.byteLength entry.text < 2 ^ 32) (hd : entry.document = some d)
    (hmapper : d.isMapper = true)
    (hapart : (d.statements.filterMap (·.resultMap)).Pairwise fun v w => v.span.Apart w.span)
    (hv : v ∈ d.statements.filterMap (·.resultMap)) :
    (∃ finding ∈ p.diagnostics uri, finding.severity = .warning ∧
        finding.region = entry.lines.region v.span) ↔
      p.resultMapLocation? uri v.value = none := by
  have hwithin : ∀ w ∈ d.statements.filterMap (·.resultMap),
      w.span.Within (Text.byteLength entry.text) := fun w hw =>
    Document.span_within_of_parse (h.parse_eq_ok hentry hd) hw
  rw [diagnostics_eq h hentry hd hmapper]
  constructor
  · rintro ⟨finding, hfinding, -, hregion⟩
    obtain ⟨w, hw, rfl⟩ := List.mem_map.1 hfinding
    obtain ⟨hw, hnone⟩ := List.mem_filter.1 hw
    -- The finding is about a reference in the same place, and that is this one.
    have hspan : w.span = v.span := by
      apply LineIndex.region_inj (hwithin w hw) (hwithin v hv) hlength
      rw [← h.lines_eq hentry]
      exact hregion
    have hstart : v.span.touches v.span.start = true :=
      Span.touches_iff.2 ⟨Nat.le_refl _, (hwithin v hv).1⟩
    have hsame : w = v := by
      have hat := Document.referenceAt?_eq_some hapart hv hstart
      rw [Document.referenceAt?_eq_some hapart hw (hspan ▸ hstart)] at hat
      exact Option.some.inj hat
    subst hsame
    simpa using hnone
  · intro hnone
    refine ⟨Document.unresolvedReference entry.lines v, ?_, rfl, rfl⟩
    exact List.mem_map_of_mem (List.mem_filter.2 ⟨hv, by simp [hnone]⟩)

/-- Navigation and findings agree. In a mapper document of a reachable project whose references
cannot be touched two at once, and at every offset that touches a reference: there is no definition
exactly if a warning covers the reference, and otherwise the definition is the place in a file of the
project that the id of the reference stands for, and the only one in the answer. The findings are the
references whose ids have no place, each once and in the order of the document. -/
theorem definition?_agrees_diagnostics (hp : p.Reachable)
    (hentry : p.registry.get? uri = some entry) (hlength : Text.byteLength entry.text < 2 ^ 32)
    (hd : entry.document = some d) (hmapper : d.isMapper = true)
    (hapart : (d.statements.filterMap (·.resultMap)).Pairwise fun v w => v.span.Apart w.span) :
    (∀ s ∈ d.statements, ∀ v, s.resultMap = some v →
      ∀ offset, v.span.start ≤ offset → offset ≤ v.span.stop →
        (p.definition? uri (entry.lines.position offset) = none ↔
          ∃ finding ∈ p.diagnostics uri, finding.severity = .warning ∧
            finding.region = entry.lines.region v.span) ∧
        p.definition? uri (entry.lines.position offset) = p.resultMapLocation? uri v.value ∧
        p.definitions? uri (entry.lines.position offset) =
          (p.resultMapLocation? uri v.value).map (fun location => [location]) ∧
        ∀ location, p.definition? uri (entry.lines.position offset) = some location →
          p.registry.contains location.file = true) ∧
    p.diagnostics uri =
      ((d.statements.filterMap (·.resultMap)).filter fun v =>
        (p.resultMapLocation? uri v.value).isNone).map
        (Document.unresolvedReference entry.lines) := by
  have h := hp.registry.upToDate
  refine ⟨?_, diagnostics_eq h hentry hd hmapper⟩
  intro s hs v hsv offset hstart hstop
  have hv : v ∈ d.statements.filterMap (·.resultMap) := List.mem_filterMap.2 ⟨s, hs, hsv⟩
  have hdefinition := definition?_position h hentry hlength hd hapart hv
    (Span.touches_iff.2 ⟨hstart, hstop⟩)
  rw [definitions?, hdefinition]
  refine ⟨?_, rfl, rfl, fun location hlocation => contains_of_resultMapLocation? hlocation⟩
  exact (exists_finding_iff h hentry hlength hd hmapper hapart hv).symm

/-- A mapper document with two references on two lines, behind a character of two bytes. -/
def linkedText : String :=
  "<mapper><select id='ä' resultMap='m'/>\n<select id='b' resultMap='n'/></mapper>"

/-- A project in which the first reference leads to another file and the second one nowhere. -/
def linked : Project :=
  (empty.addFile ⟨"N.xml"⟩ "<mapper><resultMap id='m'/></mapper>").addFile ⟨"M.xml"⟩ linkedText

/-- Behind the last character of the first reference navigation leads to the other file and nowhere
else; a warning covers the second reference, as there is no definition at it. -/
theorem definition?_agrees_diagnostics_linked :
    linked.Reachable ∧ Text.byteLength linkedText < 2 ^ 32 ∧
      linked.definition? ⟨"M.xml"⟩ ⟨0, 36⟩ = some ⟨⟨"N.xml"⟩, ⟨⟨0, 23⟩, ⟨0, 24⟩⟩⟩ ∧
      linked.definition? ⟨"M.xml"⟩ ⟨0, 36⟩ = linked.resultMapLocation? ⟨"M.xml"⟩ "m" ∧
      linked.definitions? ⟨"M.xml"⟩ ⟨0, 36⟩ = some [⟨⟨"N.xml"⟩, ⟨⟨0, 23⟩, ⟨0, 24⟩⟩⟩] ∧
      ∃ finding ∈ linked.diagnostics ⟨"M.xml"⟩, finding.severity = .warning ∧
        finding.region = ⟨⟨1, 26⟩, ⟨1, 27⟩⟩ := by
  have hp : linked.Reachable := ((Reachable.start _).addFile _ _).addFile _ _
  have hlength : Text.byteLength linkedText < 2 ^ 32 := by decide +kernel
  have hentry : linked.registry.get? ⟨"M.xml"⟩ = some (FileEntry.ofText 1 ⟨"M.xml"⟩ linkedText) :=
    rfl
  have hparsed : (FileEntry.document? ⟨"M.xml"⟩ linkedText).map
      (fun d => (d.isMapper, d.statements.filterMap (·.resultMap))) =
        some (true, [⟨"m", ⟨35, 36⟩⟩, ⟨"n", ⟨66, 67⟩⟩]) := by
    decide +kernel
  obtain ⟨d, hd, hsummary⟩ := Option.map_eq_some_iff.1 hparsed
  obtain ⟨hmapper, hreferences⟩ := Prod.mk.inj hsummary
  have hapart :
      (d.statements.filterMap (·.resultMap)).Pairwise fun v w => v.span.Apart w.span := by
    rw [hreferences]
    simp only [List.pairwise_cons, List.mem_singleton, forall_eq]
    refine ⟨?_, by simp, List.Pairwise.nil⟩
    intro offset htouches
    rw [Span.touches_iff] at htouches
    rw [Bool.eq_false_iff, ne_eq, Span.touches_iff]
    simp only at *
    omega
  have hagree := (definition?_agrees_diagnostics hp hentry hlength hd hmapper hapart).1
  have hm : (⟨"m", ⟨35, 36⟩⟩ : AttributeValue) ∈ d.statements.filterMap (·.resultMap) := by
    rw [hreferences]
    simp
  have hn : (⟨"n", ⟨66, 67⟩⟩ : AttributeValue) ∈ d.statements.filterMap (·.resultMap) := by
    rw [hreferences]
    simp
  obtain ⟨sm, hsm, hsmv⟩ := List.mem_filterMap.1 hm
  obtain ⟨sn, hsn, hsnv⟩ := List.mem_filterMap.1 hn
  have hposition : (FileEntry.ofText 1 ⟨"M.xml"⟩ linkedText).lines.position 36 = ⟨0, 36⟩ := by
    decide +kernel
  have hplace : linked.definition? ⟨"M.xml"⟩ ⟨0, 36⟩ =
      some ⟨⟨"N.xml"⟩, ⟨⟨0, 23⟩, ⟨0, 24⟩⟩⟩ := by decide +kernel
  have hatm := hagree sm hsm _ hsmv 36 (by decide) (by decide)
  have hatn := hagree sn hsn _ hsnv 66 (by decide) (by decide)
  rw [hposition] at hatm
  obtain ⟨-, hsame, honly, -⟩ := hatm
  refine ⟨hp, hlength, hplace, hsame, ?_, hatn.1.1 (by decide +kernel)⟩
  rw [honly, ← hsame, hplace]
  rfl

end Project

end SqlMapper

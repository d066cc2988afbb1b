import Mathlib.Data.List.Basic
import SqlMapper.Project.Diagnostics
import SqlMapper.Project.Navigation
import SqlMapper.Proofs.Document.Resolution
import SqlMapper.Proofs.Project.Reachable
import SqlMapper.Proofs.Table

/-!
# Resolution in a project

In a registry that is up to date every document stands under its own uri. Whatever an id resolves to
is therefore a document of a file that the project has, so the target always has a place, and a
reference is reported exactly if it leads nowhere.

## Main statements

* `Registry.UpToDate.mem_mapperDocuments`: the mapper documents are those of the files.
* `Registry.mapperDocuments_add`, `Registry.UpToDate.mapperDocuments_remove`: what a change does to
  them.
* `Project.resultMapLocation?_eq_none_iff`: an id has no place exactly if it does not resolve.
* `Project.diagnostics_eq`: the findings are the references that have no place.
-/

namespace SqlMapper

theorem Document.uri_of_parse {uri : FileUri} {text : String} {d : Document}
    (h : parse uri text = .ok d) : d.uri = uri := by
  unfold parse at h
  split at h
  · rw [← Except.ok.inj h]
    rfl
  · cases h

/-- A file has a document if its text is one in the language of documents. -/
theorem FileEntry.document?_eq_some_iff {uri : FileUri} {text : String} {d : Document} :
    document? uri text = some d ↔ Language.ofUri uri = .xml ∧ Document.parse uri text = .ok d := by
  unfold document?
  cases hlanguage : Language.ofUri uri with
  | xml =>
    cases hparse : Document.parse uri text with
    | ok found => simp [Except.toOption]
    | error e => simp [Except.toOption]
  | sql => simp
  | other => simp

namespace Registry

variable {r : Registry} {uri : FileUri} {entry : FileEntry} {d : Document}

theorem contains_eq_isSome_get? (r : Registry) (uri : FileUri) :
    r.contains uri = (r.get? uri).isSome :=
  Table.contains_eq_isSome_get? r.files uri

theorem UpToDate.key_eq (h : r.UpToDate) (hentry : r.get? uri = some entry) :
    entry.uri = uri := by
  rw [h uri entry hentry]
  rfl

theorem UpToDate.document_eq (h : r.UpToDate) (hentry : r.get? uri = some entry) :
    entry.document = FileEntry.document? uri entry.text := by
  rw [h uri entry hentry]
  rfl

theorem UpToDate.lines_eq (h : r.UpToDate) (hentry : r.get? uri = some entry) :
    entry.lines = LineIndex.ofText entry.text := by
  rw [h uri entry hentry]
  rfl

theorem UpToDate.parse_eq_ok (h : r.UpToDate) (hentry : r.get? uri = some entry)
    (hd : entry.document = some d) : Document.parse uri entry.text = .ok d := by
  rw [h.document_eq hentry] at hd
  exact (FileEntry.document?_eq_some_iff.1 hd).2

theorem UpToDate.uri_eq (h : r.UpToDate) (hentry : r.get? uri = some entry)
    (hd : entry.document = some d) : d.uri = uri :=
  Document.uri_of_parse (h.parse_eq_ok hentry hd)

/-- The mapper documents are those of the files, each under its own uri. -/
theorem UpToDate.mem_mapperDocuments (h : r.UpToDate) :
    d ∈ r.mapperDocuments ↔
      d.isMapper = true ∧ ∃ entry, r.get? d.uri = some entry ∧ entry.document = some d := by
  have hfiles : d ∈ r.entries.filterMap (·.document) ↔
      ∃ entry, r.get? d.uri = some entry ∧ entry.document = some d := by
    rw [List.mem_filterMap]
    constructor
    · rintro ⟨entry, hmem, hd⟩
      obtain ⟨⟨uri, _⟩, hfile, rfl⟩ := List.mem_map.1 hmem
      have hentry := Table.get?_eq_some_iff.2 hfile
      exact ⟨_, h.uri_eq hentry hd ▸ hentry, hd⟩
    · rintro ⟨entry, hentry, hd⟩
      exact ⟨entry, List.mem_map.2 ⟨_, Table.get?_eq_some_iff.1 hentry, rfl⟩, hd⟩
  rw [mapperDocuments, List.mem_filter, hfiles, and_comm]

/-- A new file comes behind all others. -/
theorem entries_add_of_not_contains (hnew : r.contains uri = false) (text : String) :
    (r.add uri text).entries = r.entries ++ [FileEntry.ofText (r.idFor uri) uri text] := by
  simp [entries, Table.values, add, Table.entries_insert_of_not_contains hnew]

theorem mapperDocuments_add (hnew : r.contains uri = false) (text : String) :
    (r.add uri text).mapperDocuments =
      r.mapperDocuments ++ ((FileEntry.document? uri text).toList.filter Document.isMapper) := by
  rw [mapperDocuments, entries_add_of_not_contains hnew, List.filterMap_append, List.filter_append]
  rfl

/-- Removing a file removes its document and keeps the order of the others. -/
theorem UpToDate.mapperDocuments_remove (h : r.UpToDate) (uri : FileUri) :
    (r.remove uri).mapperDocuments = r.mapperDocuments.filter fun d => d.uri ≠ uri := by
  have hdocuments : (r.remove uri).entries.filterMap (·.document) =
      (r.entries.filterMap (·.document)).filter fun d => d.uri ≠ uri := by
    simp only [entries, Table.values, Registry.remove, Table.erase]
    rw [List.filterMap_map, List.filterMap_map, List.filterMap_filter, List.filter_filterMap]
    apply List.filterMap_congr
    intro file hfile
    cases hd : file.2.document with
    | none => simp [hd]
    | some d =>
      have huri : d.uri = file.1 := h.uri_eq (Table.get?_eq_some_iff.2 hfile) hd
      by_cases hkey : file.1 = uri <;> simp [hd, Option.filter_some, huri, hkey]
  rw [mapperDocuments, mapperDocuments, hdocuments, List.filter_filter, List.filter_filter]
  simp only [Bool.and_comm]

end Registry

namespace Project

variable {p : Project} {uri : FileUri} {entry : FileEntry} {d : Document}

/-- An id has a place if it resolves, from a document of a file to one of a file. -/
theorem resultMapLocation?_eq_some_iff {id : String} {location : Location} :
    p.resultMapLocation? uri id = some location ↔
      ∃ entry d t defining, p.registry.get? uri = some entry ∧ entry.document = some d ∧
        resolveResultMap? id d p.registry.mapperDocuments = some t ∧
        p.registry.get? t.uri = some defining ∧
        ⟨t.uri, defining.lines.region t.definition.idSpan⟩ = location := by
  simp only [resultMapLocation?, Option.bind_eq_bind, Option.bind_eq_some_iff, Option.some.injEq,
    exists_and_left]

/-- Whatever an id resolves to belongs to a file of the project. -/
theorem exists_get?_of_resolve (h : p.registry.UpToDate)
    (hentry : p.registry.get? uri = some entry) (hd : entry.document = some d) {id : String}
    {t : ResultMapTarget} (ht : resolveResultMap? id d p.registry.mapperDocuments = some t) :
    ∃ defining, p.registry.get? t.uri = some defining := by
  obtain ⟨hscope, -⟩ := exists_mem_scope_of_resolve ht
  obtain ⟨-, hown | ⟨hother, -⟩⟩ := Document.mem_scope.1 hscope
  · exact ⟨entry, by rw [ResultMapTarget.uri, hown, h.uri_eq hentry hd, hentry]⟩
  · obtain ⟨-, defining, hdefining, -⟩ := h.mem_mapperDocuments.1 hother
    exact ⟨defining, hdefining⟩

theorem resultMapLocation?_eq_none_iff (h : p.registry.UpToDate)
    (hentry : p.registry.get? uri = some entry) (hd : entry.document = some d) (id : String) :
    p.resultMapLocation? uri id = none ↔
      resolveResultMap? id d p.registry.mapperDocuments = none := by
  cases ht : resolveResultMap? id d p.registry.mapperDocuments with
  | none => simp [resultMapLocation?, hentry, hd, ht]
  | some t =>
    obtain ⟨defining, hdefining⟩ := exists_get?_of_resolve h hentry hd ht
    simp [resultMapLocation?, hentry, hd, ht, hdefining]

/-- The findings in a mapper document are its references that have no place, in their order. -/
theorem diagnostics_eq (h : p.registry.UpToDate) (hentry : p.registry.get? uri = some entry)
    (hd : entry.document = some d) (hmapper : d.isMapper = true) :
    p.diagnostics uri =
      ((d.statements.filterMap (·.resultMap)).filter fun v =>
        (p.resultMapLocation? uri v.value).isNone).map
        (Document.unresolvedReference entry.lines) := by
  have hplace : ∀ v : AttributeValue,
      (resolveResultMap? v.value d p.registry.mapperDocuments).isNone =
        (p.resultMapLocation? uri v.value).isNone := by
    intro v
    rw [Bool.eq_iff_iff, Option.isNone_iff_eq_none, Option.isNone_iff_eq_none,
      resultMapLocation?_eq_none_iff h hentry hd]
  simp [diagnostics, documentDiagnostics, hentry, hd, hmapper, Document.unresolvedReferences,
    hplace]

end Project

end SqlMapper

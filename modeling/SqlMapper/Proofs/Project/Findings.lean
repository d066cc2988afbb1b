import SqlMapper.Proofs.Project.Registration

/-!
# Findings of a project

Which document defines a result map, and where in the order of the files it stands, decides where a
reference leads, but not whether it leads anywhere. So the findings in a file depend on the files of
a project only, not on their order, and there is one for each statement whose result map no document
of its namespace defines.

## Main definitions

* `Dangling`: a statement refers to a result map that is defined nowhere.
* `danglingStatements`: all such statements of some documents.

## Main statements

* `Registry.UpToDate.resolveResultMap?_eq_none_iff`: an id does not resolve if it is not defined.
* `Project.length_diagnostics`: there is a finding for each dangling statement.
* `Project.allDiagnostics_perm`: the findings do not depend on the order of the files.
-/

namespace SqlMapper

/-- The statement of a document refers to a result map that neither the document nor any mapper
document of the same namespace defines. -/
def Dangling (project : List Document) (d : Document) (s : Statement) : Prop :=
  ∃ v ∈ s.resultMap, ¬d.Defines v.value ∧
    ∀ other ∈ project, other.namespaceName = d.namespaceName → ¬other.Defines v.value

instance (project : List Document) (d : Document) (s : Statement) :
    Decidable (Dangling project d s) :=
  inferInstanceAs (Decidable (∃ v ∈ s.resultMap, ¬d.Defines v.value ∧
    ∀ other ∈ project, other.namespaceName = d.namespaceName → ¬other.Defines v.value))

/-- The statements of some mapper documents whose result maps are defined nowhere among them. -/
def danglingStatements (project : List Document) : List Statement :=
  project.flatMap fun d => d.statements.filter fun s => Dangling project d s

/-! ### Resolution without order -/

/-- Whether an id resolves depends only on which documents there are. -/
theorem isNone_resolveResultMap?_congr {project project' : List Document}
    (h : ∀ d, d ∈ project ↔ d ∈ project') (id : String) (d : Document) :
    (resolveResultMap? id d project).isNone = (resolveResultMap? id d project').isNone := by
  rw [Bool.eq_iff_iff, Option.isNone_iff_eq_none, Option.isNone_iff_eq_none,
    resolveResultMap?_eq_none_iff, resolveResultMap?_eq_none_iff]
  simp only [Document.mem_scope, h]

namespace Registry

variable {r : Registry} {d : Document}

/-- Mapper documents of one file are one document. -/
theorem UpToDate.eq_of_uri_eq (h : r.UpToDate) {other : Document} (hd : d ∈ r.mapperDocuments)
    (hother : other ∈ r.mapperDocuments) (huri : other.uri = d.uri) : other = d := by
  obtain ⟨-, entry, hentry, hdocument⟩ := h.mem_mapperDocuments.1 hd
  obtain ⟨-, entry', hentry', hdocument'⟩ := h.mem_mapperDocuments.1 hother
  rw [huri, hentry, Option.some.injEq] at hentry'
  rw [← hentry', hdocument, Option.some.injEq] at hdocument'
  exact hdocument'.symm

/-- An id does not resolve in a mapper document exactly if neither the document nor any other of
its namespace defines it. -/
theorem UpToDate.resolveResultMap?_eq_none_iff (h : r.UpToDate) (hd : d ∈ r.mapperDocuments)
    (id : String) :
    resolveResultMap? id d r.mapperDocuments = none ↔
      ¬d.Defines id ∧
        ∀ other ∈ r.mapperDocuments, other.namespaceName = d.namespaceName →
          ¬other.Defines id := by
  have hmapper := (h.mem_mapperDocuments.1 hd).1
  rw [SqlMapper.resolveResultMap?_eq_none_iff]
  simp only [Document.mem_scope, hmapper, true_and, Document.resultMap?_eq_none_iff]
  constructor
  · intro hscope
    refine ⟨hscope d (.inl rfl), fun other hother hnamespace => ?_⟩
    -- the scope leaves out documents of the same file, but the only one is the document itself
    by_cases huri : other.uri = d.uri
    · exact hscope other (.inl (h.eq_of_uri_eq hd hother huri))
    · have hmapper' := (h.mem_mapperDocuments.1 hother).1
      exact hscope other (.inr ⟨hother, by simp [Document.sharesWith, huri, hmapper', hnamespace]⟩)
  · rintro ⟨hown, hothers⟩ other (rfl | ⟨hother, hshares⟩)
    · exact hown
    · simp only [Document.sharesWith, Bool.and_eq_true, decide_eq_true_eq] at hshares
      exact hothers other hother hshares.2

end Registry

namespace Project

variable {p p' : Project} {uri : FileUri} {entry : FileEntry} {d : Document}

/-! ### The number of findings -/

theorem length_unresolvedReferences (h : p.registry.UpToDate)
    (hd : d ∈ p.registry.mapperDocuments) :
    (d.unresolvedReferences p.registry.mapperDocuments).length =
      (d.statements.filter fun s => Dangling p.registry.mapperDocuments d s).length := by
  rw [Document.unresolvedReferences, ← List.countP_eq_length_filter,
    ← List.countP_eq_length_filter, List.countP_filterMap]
  apply List.countP_congr
  intro s hs
  cases hv : s.resultMap with
  | none => simp [Dangling, hv]
  | some v => simp [Dangling, hv, h.resolveResultMap?_eq_none_iff hd]

/-- A file has a finding for each dangling statement of its mapper document. -/
theorem length_diagnostics (h : p.registry.UpToDate) (hentry : p.registry.get? uri = some entry) :
    (p.diagnostics uri).length =
      ((entry.document.toList.filter Document.isMapper).flatMap fun d =>
        d.statements.filter fun s => Dangling p.registry.mapperDocuments d s).length := by
  cases hd : entry.document with
  | none => simp [diagnostics, hentry, hd]
  | some d =>
    cases hmapper : d.isMapper with
    | false => simp [diagnostics, documentDiagnostics, hentry, hd, hmapper]
    | true =>
      have hmem : d ∈ p.registry.mapperDocuments := by
        rw [h.mem_mapperDocuments, h.uri_eq hentry hd]
        exact ⟨hmapper, entry, hentry, hd⟩
      simp [diagnostics, documentDiagnostics, hentry, hd, hmapper,
        length_unresolvedReferences h hmem]

/-- There are as many findings in a project as dangling statements in its mapper documents. -/
theorem length_flatMap_diagnostics (h : p.registry.UpToDate) :
    (p.files.flatMap p.diagnostics).length =
      (danglingStatements p.registry.mapperDocuments).length := by
  have hdocuments : p.registry.mapperDocuments =
      p.registry.files.entries.flatMap fun f => f.2.document.toList.filter Document.isMapper := by
    rw [Registry.mapperDocuments, Registry.entries, Table.values, List.filterMap_map,
      List.filterMap_eq_flatMap_toList, List.filter_flatMap]
    rfl
  have hstatements : danglingStatements p.registry.mapperDocuments =
      p.registry.files.entries.flatMap fun f =>
        (f.2.document.toList.filter Document.isMapper).flatMap fun d =>
          d.statements.filter fun s => Dangling p.registry.mapperDocuments d s := by
    rw [danglingStatements]
    conv_lhs => rw [hdocuments, List.flatMap_assoc]
    rw [hdocuments]
  -- now both sides are sums over the files of the registry
  rw [hstatements, files, Registry.uris, Table.keys, List.flatMap_map, List.length_flatMap,
    List.length_flatMap]
  congr 1
  apply List.map_congr_left
  intro f hf
  exact length_diagnostics h (Table.get?_eq_some_iff.2 hf)

/-! ### The order of files -/

/-- The findings in a file depend on its text and on which mapper documents there are. -/
theorem diagnostics_congr {text : String} {id id' : Nat}
    (hdocuments : ∀ d, d ∈ p.registry.mapperDocuments ↔ d ∈ p'.registry.mapperDocuments)
    (hentry : p.registry.get? uri = some (FileEntry.ofText id uri text))
    (hentry' : p'.registry.get? uri = some (FileEntry.ofText id' uri text)) :
    p.diagnostics uri = p'.diagnostics uri := by
  have hreferences : ∀ d : Document, d.unresolvedReferences p.registry.mapperDocuments =
      d.unresolvedReferences p'.registry.mapperDocuments := by
    intro d
    simp only [Document.unresolvedReferences, isNone_resolveResultMap?_congr hdocuments]
  simp only [diagnostics, documentDiagnostics, hentry, hentry', hreferences]
  rfl

theorem diagnostics_addFiles_of_perm (settings : Settings) {files files' : List (FileUri × String)}
    (hdistinct : (files.map Prod.fst).Nodup) (hperm : files.Perm files') {uri : FileUri}
    (huri : uri ∈ files.map Prod.fst) :
    ((ofSettings settings).addFiles files).diagnostics uri =
      ((ofSettings settings).addFiles files').diagnostics uri := by
  have hdistinct' : (files'.map Prod.fst).Nodup := (hperm.map Prod.fst).nodup_iff.1 hdistinct
  obtain ⟨⟨uri, text⟩, hfile, rfl⟩ := List.mem_map.1 huri
  obtain ⟨id, hentry⟩ := get?_addFiles hdistinct hfile
  obtain ⟨id', hentry'⟩ := get?_addFiles hdistinct' (hperm.mem_iff.1 hfile)
  refine diagnostics_congr (fun d => ?_) hentry hentry'
  rw [mapperDocuments_addFiles settings hdistinct, mapperDocuments_addFiles settings hdistinct']
  exact ((hperm.filterMap _).filter _).mem_iff

/-- Files that are registered in another order have the same findings. -/
theorem allDiagnostics_perm (settings : Settings) {files files' : List (FileUri × String)}
    (hdistinct : (files.map Prod.fst).Nodup) (hperm : files.Perm files') :
    ((ofSettings settings).addFiles files).allDiagnostics.Perm
      ((ofSettings settings).addFiles files').allDiagnostics := by
  have hdistinct' : (files'.map Prod.fst).Nodup := (hperm.map Prod.fst).nodup_iff.1 hdistinct
  have hfound : (files.map Prod.fst).map
      (fun uri => (uri, ((ofSettings settings).addFiles files).diagnostics uri)) =
      (files.map Prod.fst).map
        fun uri => (uri, ((ofSettings settings).addFiles files').diagnostics uri) := by
    apply List.map_congr_left
    intro uri huri
    rw [diagnostics_addFiles_of_perm settings hdistinct hperm huri]
  rw [allDiagnostics, allDiagnostics, files_addFiles settings hdistinct,
    files_addFiles settings hdistinct', hfound]
  exact ((hperm.map Prod.fst).map _).filter _

end Project

end SqlMapper

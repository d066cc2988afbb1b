import SqlMapper.Proofs.Project.Resolution

/-!
# Resolution as files come and go

An id is resolved to the first match in the order of the files. A new file comes behind all others,
so it gives a place only to ids that had none, and removing a file keeps the order of the others,
so it takes a place only from ids that had theirs in it.

## Main statements

* `Project.resultMapLocation?_addFile`, `Project.of_resultMapLocation?_addFile`: a new file.
* `Project.diagnostics_addFile_sublist`: a new file brings no findings to other files.
* `Project.resultMapLocation?_removeFile`, `Project.resultMapLocation?_removeFile_eq_none`: a file
  less.
* `Project.resultMapLocation?_framed`: all of it, over reachable registries.
-/

namespace SqlMapper.Project

variable {p : Project} {g u : FileUri} {entry : FileEntry} {id : String} {location : Location}

/-! ### A new file -/

/-- A file that the project had is not the new one and stays as it is. -/
theorem get?_addFile (hnew : p.registry.contains u = false) (text : String)
    (hentry : p.registry.get? g = some entry) :
    (p.addFile u text).registry.get? g = some entry := by
  have hne : g ≠ u := by
    rintro rfl
    rw [Registry.contains_eq_isSome_get?, hentry] at hnew
    cases hnew
  rw [addFile, Registry.get?_add, if_neg hne, hentry]

/-- With a new file an id resolves as before, or else into the new file. -/
theorem resolveResultMap?_addFile (hnew : p.registry.contains u = false) (text : String)
    (d : Document) (id : String) :
    resolveResultMap? id d (p.addFile u text).registry.mapperDocuments =
      (resolveResultMap? id d p.registry.mapperDocuments).or
        (resolveResultMap? id d
          ((FileEntry.document? u text).toList.filter Document.isMapper)) := by
  rw [addFile, Registry.mapperDocuments_add hnew, resolveResultMap?_append]

/-- A new file leaves every id that has a place where it is. -/
theorem resultMapLocation?_addFile (hnew : p.registry.contains u = false) (text : String)
    (h : p.resultMapLocation? g id = some location) :
    (p.addFile u text).resultMapLocation? g id = some location := by
  obtain ⟨entry, d, t, defining, hentry, hd, ht, hdefining, rfl⟩ :=
    resultMapLocation?_eq_some_iff.1 h
  have ht' : resolveResultMap? id d (p.addFile u text).registry.mapperDocuments = some t := by
    rw [resolveResultMap?_addFile hnew, ht, Option.some_or]
  exact resultMapLocation?_eq_some_iff.2 ⟨entry, d, t, defining, get?_addFile hnew text hentry, hd,
    ht', get?_addFile hnew text hdefining, rfl⟩

/-- An id that gets a place through a new file has it in that file, which is a mapper document of
the same namespace and defines the id. -/
theorem of_resultMapLocation?_addFile (h : p.registry.UpToDate)
    (hnew : p.registry.contains u = false) (text : String)
    (hentry : p.registry.get? g = some entry) (hbefore : p.resultMapLocation? g id = none)
    (hafter : (p.addFile u text).resultMapLocation? g id = some location) :
    location.file = u ∧ ∃ d other, entry.document = some d ∧
      FileEntry.document? u text = some other ∧ other.isMapper = true ∧
      other.namespaceName = d.namespaceName ∧ (other.resultMap? id).isSome = true := by
  obtain ⟨entry', d, t, defining, hentry', hd, ht, -, rfl⟩ :=
    resultMapLocation?_eq_some_iff.1 hafter
  rw [get?_addFile hnew text hentry] at hentry'
  obtain rfl := Option.some.inj hentry'
  have hnone := (resultMapLocation?_eq_none_iff h hentry hd id).1 hbefore
  rw [resolveResultMap?_addFile hnew, hnone, Option.none_or] at ht
  obtain ⟨hscope, hdefinition⟩ := exists_mem_scope_of_resolve ht
  obtain ⟨hmapper, hown | ⟨hmem, hshares⟩⟩ := Document.mem_scope.1 hscope
  · -- The document of the file itself does not define the id, else it had resolved before.
    have hundefined := resolveResultMap?_eq_none_iff.1 hnone d
      (Document.mem_scope.2 ⟨hmapper, .inl rfl⟩)
    rw [hown, hundefined] at hdefinition
    cases hdefinition
  · obtain ⟨hdocument, hother⟩ := List.mem_filter.1 hmem
    have hnewDocument : FileEntry.document? u text = some t.document := by
      simpa using hdocument
    have huri : t.document.uri = u :=
      Document.uri_of_parse (FileEntry.document?_eq_some_iff.1 hnewDocument).2
    have hnamespace : t.document.namespaceName = d.namespaceName := by
      simp only [Document.sharesWith, Bool.and_eq_true, decide_eq_true_eq] at hshares
      exact hshares.2
    refine ⟨huri, d, t.document, hd, hnewDocument, hother, hnamespace, ?_⟩
    rw [hdefinition]
    rfl

/-- A new file brings no findings to the others: some of theirs may go, in the order they have. -/
theorem diagnostics_addFile_sublist (h : p.registry.UpToDate)
    (hnew : p.registry.contains u = false) (text : String)
    (hentry : p.registry.get? g = some entry) :
    ((p.addFile u text).diagnostics g).Sublist (p.diagnostics g) := by
  have hentry' := get?_addFile hnew text hentry
  have h' : (p.addFile u text).registry.UpToDate := h.add u text
  cases hd : entry.document with
  | none => simp [diagnostics, hentry, hentry', hd]
  | some d =>
    cases hmapper : d.isMapper with
    | false => simp [diagnostics, documentDiagnostics, hentry, hentry', hd, hmapper]
    | true =>
      rw [diagnostics_eq h hentry hd hmapper, diagnostics_eq h' hentry' hd hmapper]
      apply List.Sublist.map
      apply List.monotone_filter_right
      intro v hnone
      rw [Option.isNone_iff_eq_none] at hnone ⊢
      -- What had a place before has one now.
      by_contra hne
      obtain ⟨location, hlocation⟩ := Option.ne_none_iff_exists'.1 hne
      rw [resultMapLocation?_addFile hnew text hlocation] at hnone
      cases hnone

/-! ### A file less -/

/-- Removing a file takes no place away that lies in another file. -/
theorem resultMapLocation?_removeFile (h : p.registry.UpToDate) (hg : u ≠ g)
    (hlocation : p.resultMapLocation? g id = some location) (hfile : location.file ≠ u) :
    (p.removeFile u).resultMapLocation? g id = some location := by
  obtain ⟨entry, d, t, defining, hentry, hd, ht, hdefining, rfl⟩ :=
    resultMapLocation?_eq_some_iff.1 hlocation
  have hkeep : ∀ x, x ≠ u → (p.removeFile u).registry.get? x = p.registry.get? x := by
    intro x hx
    rw [removeFile, Registry.get?_remove, if_neg hx]
  have hd' : d.uri ≠ u := by
    rw [h.uri_eq hentry hd]
    exact hg.symm
  have ht' : resolveResultMap? id d (p.removeFile u).registry.mapperDocuments = some t := by
    rw [removeFile, h.mapperDocuments_remove]
    have hkept : t.document.uri ≠ u := hfile
    exact resolveResultMap?_filter (by simpa using hd') ht (by simpa using hkept)
  exact resultMapLocation?_eq_some_iff.2 ⟨entry, d, t, defining, (hkeep g hg.symm).trans hentry, hd,
    ht', (hkeep t.uri hfile).trans hdefining, rfl⟩

/-- Removing a file gives no id a place. -/
theorem resultMapLocation?_removeFile_eq_none (h : p.registry.UpToDate)
    (hnone : p.resultMapLocation? g id = none) :
    (p.removeFile u).resultMapLocation? g id = none := by
  rw [Option.eq_none_iff_forall_ne_some]
  intro location hlocation
  obtain ⟨entry, d, t, -, hentry, hd, ht, -, -⟩ := resultMapLocation?_eq_some_iff.1 hlocation
  rw [removeFile, Registry.get?_remove] at hentry
  split at hentry
  · cases hentry
  · have hresolve := (resultMapLocation?_eq_none_iff h hentry hd id).1 hnone
    rw [removeFile, h.mapperDocuments_remove,
      resolveResultMap?_filter_eq_none _ hresolve] at ht
    cases ht

/-- Adding and removing files frames resolution. Seen from a file `g` of a project whose registry is
reachable: a new file keeps the places of all ids, an id that it gives a place has it in the new
file, a mapper document of the namespace of `g` that defines the id, and it brings no findings to
`g`. Removing another file keeps all places that do not lie in it and gives no id a place. -/
theorem resultMapLocation?_framed (hr : p.registry.Reachable)
    (hg : p.registry.contains g = true) (u : FileUri) :
    (p.registry.contains u = false → ∀ text,
      (∀ id location, p.resultMapLocation? g id = some location →
        (p.addFile u text).resultMapLocation? g id = some location) ∧
      (∀ id location, p.resultMapLocation? g id = none →
        (p.addFile u text).resultMapLocation? g id = some location →
        location.file = u ∧ ∃ d other, (p.registry.get? g).bind (·.document) = some d ∧
          FileEntry.document? u text = some other ∧ other.isMapper = true ∧
          other.namespaceName = d.namespaceName ∧ (other.resultMap? id).isSome = true) ∧
      ((p.addFile u text).diagnostics g).Sublist (p.diagnostics g)) ∧
    (∀ id location, u ≠ g → p.resultMapLocation? g id = some location → location.file ≠ u →
      (p.removeFile u).resultMapLocation? g id = some location) ∧
    (∀ id, p.resultMapLocation? g id = none →
      (p.removeFile u).resultMapLocation? g id = none) := by
  have h := hr.upToDate
  rw [Registry.contains_eq_isSome_get?, Option.isSome_iff_exists] at hg
  obtain ⟨entry, hentry⟩ := hg
  refine ⟨fun hnew text => ⟨?_, ?_, ?_⟩, ?_, ?_⟩
  · intro id location hlocation
    exact resultMapLocation?_addFile hnew text hlocation
  · intro id location hbefore hafter
    rw [hentry, Option.bind_some]
    exact of_resultMapLocation?_addFile h hnew text hentry hbefore hafter
  · exact diagnostics_addFile_sublist h hnew text hentry
  · intro id location hne hlocation hfile
    exact resultMapLocation?_removeFile h hne hlocation hfile
  · intro id hnone
    exact resultMapLocation?_removeFile_eq_none h hnone

/-- A project with one file, whose reference leads nowhere. -/
def lonely : Project :=
  empty.addFile ⟨"M.xml"⟩ "<mapper><select id='a' resultMap='m'/></mapper>"

/-- The text of a file that defines what the reference names. -/
def definingText : String :=
  "<mapper><resultMap id='m'/></mapper>"

/-- A file that defines the result map gives the reference its place. -/
theorem resultMapLocation?_framed_lonely :
    lonely.registry.Reachable ∧ lonely.registry.contains ⟨"M.xml"⟩ = true ∧
      lonely.resultMapLocation? ⟨"M.xml"⟩ "m" = none ∧
      ∃ location, (lonely.addFile ⟨"N.xml"⟩ definingText).resultMapLocation? ⟨"M.xml"⟩ "m" =
        some location ∧ location.file = ⟨"N.xml"⟩ := by
  have hr : lonely.registry.Reachable := Registry.Reachable.empty.add _ _
  have hg : lonely.registry.contains ⟨"M.xml"⟩ = true := by decide +kernel
  have hnew : lonely.registry.contains ⟨"N.xml"⟩ = false := by decide +kernel
  have hbefore : lonely.resultMapLocation? ⟨"M.xml"⟩ "m" = none := by decide +kernel
  have hafter : ((lonely.addFile ⟨"N.xml"⟩ definingText).resultMapLocation? ⟨"M.xml"⟩ "m").isSome =
      true := by decide +kernel
  obtain ⟨location, hlocation⟩ := Option.isSome_iff_exists.1 hafter
  obtain ⟨-, hgained, -⟩ := (resultMapLocation?_framed hr hg ⟨"N.xml"⟩).1 hnew definingText
  exact ⟨hr, hg, hbefore, location, hlocation, (hgained "m" location hbefore hlocation).1⟩

end SqlMapper.Project

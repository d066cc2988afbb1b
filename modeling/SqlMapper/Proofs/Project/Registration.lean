import SqlMapper.Proofs.Project.History

/-!
# Registering several files

Files that come in one after the other, each under a uri of its own. Every one of them is there
afterwards with its text, files that were there before keep their numbers and their places, and
those that none of the new ones updates are as they were.

## Main definitions

* `Registry.addAll`: a registry with several files added.
* `Project.addFiles`: a project with several files added.
* `documentsOf`: the mapper documents in some files.

## Main statements

* `Registry.get?_addAll_of_mem`, `Registry.get?_addAll_of_not_mem`: the files afterwards.
* `Registry.id?_addAll`: files that were there keep their numbers.
* `Registry.uris_addAll`: they keep their places, and new files come behind them in their order.
* `Registry.mapperDocuments_addAll`: so do the documents in new files.
-/

namespace SqlMapper

/-- The documents of mapped statements in some files, in their order. -/
def documentsOf (files : List (FileUri × String)) : List Document :=
  (files.filterMap fun f => FileEntry.document? f.1 f.2).filter Document.isMapper

theorem documentsOf_cons (f : FileUri × String) (files : List (FileUri × String)) :
    documentsOf (f :: files) =
      (FileEntry.document? f.1 f.2).toList.filter Document.isMapper ++ documentsOf files := by
  rw [documentsOf, documentsOf, ← List.filter_append]
  cases hd : FileEntry.document? f.1 f.2 with
  | none => simp [hd]
  | some d => simp [hd]

namespace Registry

/-- The registry with several files added, one after the other. -/
def addAll (r : Registry) (files : List (FileUri × String)) : Registry :=
  files.foldl (fun r f => r.add f.1 f.2) r

variable {r : Registry} {files : List (FileUri × String)} {uri : FileUri} {text : String}

theorem addAll_cons (r : Registry) (f : FileUri × String) (files : List (FileUri × String)) :
    r.addAll (f :: files) = (r.add f.1 f.2).addAll files :=
  rfl

/-- Adding files is a run of changes without a removal. -/
theorem addAll_eq_foldl_apply (r : Registry) (files : List (FileUri × String)) :
    r.addAll files = (files.map fun f => Change.add f.1 f.2).foldl apply r := by
  rw [List.foldl_map]
  rfl

/-- A file that none of the new ones updates stays as it is. -/
theorem get?_addAll_of_not_mem (h : uri ∉ files.map Prod.fst) :
    (r.addAll files).get? uri = r.get? uri := by
  rw [addAll_eq_foldl_apply]
  apply get?_foldl_of_untouched
  intro c hc
  obtain ⟨f, hf, rfl⟩ := List.mem_map.1 hc
  rintro rfl
  exact h (List.mem_map_of_mem hf)

/-- Every new file is there with its text. -/
theorem get?_addAll_of_mem (hdistinct : (files.map Prod.fst).Nodup) (hmem : (uri, text) ∈ files) :
    ∃ id, (r.addAll files).get? uri = some (FileEntry.ofText id uri text) := by
  induction files generalizing r with
  | nil => cases hmem
  | cons f files ih =>
    rw [List.map_cons, List.nodup_cons] at hdistinct
    rw [addAll_cons]
    rcases List.mem_cons.1 hmem with rfl | hrest
    · refine ⟨r.idFor uri, ?_⟩
      rw [get?_addAll_of_not_mem hdistinct.1, get?_add, if_pos rfl]
    · exact ih hdistinct.2 hrest

theorem id?_addAll {id : Nat} (h : r.id? uri = some id) : (r.addAll files).id? uri = some id := by
  rw [addAll_eq_foldl_apply]
  exact id?_foldl_of_not_removed (by simp) h

/-- Files that were there keep their places, and new ones come behind them in their order. -/
theorem uris_addAll (hdistinct : (files.map Prod.fst).Nodup) :
    (r.addAll files).uris = r.uris ++ (files.map Prod.fst).filter fun uri => uri ∉ r.uris := by
  induction files generalizing r with
  | nil => simp [addAll]
  | cons f files ih =>
    rw [List.map_cons, List.nodup_cons] at hdistinct
    rw [addAll_cons, ih hdistinct.2, uris_add, List.map_cons, List.filter_cons]
    by_cases hmem : f.1 ∈ r.uris
    · simp [hmem]
    · -- the others differ from the first, so it makes no difference to which of them are new
      have hothers : (files.map Prod.fst).filter (fun uri => uri ∉ r.uris ++ [f.1]) =
          (files.map Prod.fst).filter fun uri => uri ∉ r.uris := by
        apply List.filter_congr
        intro uri huri
        have hne : uri ≠ f.1 := fun heq => hdistinct.1 (heq ▸ huri)
        simp [hne]
      rw [if_neg hmem, if_pos (decide_eq_true hmem), hothers, ← List.append_cons]

theorem mapperDocuments_addAll (h : (r.uris ++ files.map Prod.fst).Nodup) :
    (r.addAll files).mapperDocuments = r.mapperDocuments ++ documentsOf files := by
  induction files generalizing r with
  | nil => simp [addAll, documentsOf]
  | cons f files ih =>
    have hmem : f.1 ∉ r.uris := by
      rw [List.map_cons, List.nodup_append] at h
      exact fun hold => h.2.2 f.1 hold f.1 List.mem_cons_self rfl
    have hnew : r.contains f.1 = false := by
      rwa [Bool.eq_false_iff, ne_eq, contains_iff_mem_uris]
    have hrest : ((r.add f.1 f.2).uris ++ files.map Prod.fst).Nodup := by
      rwa [uris_add, if_neg hmem, ← List.append_cons]
    rw [addAll_cons, ih hrest, mapperDocuments_add hnew, List.append_assoc, documentsOf_cons]

end Registry

namespace Project

/-- The project with several files added, one after the other. -/
def addFiles (p : Project) (files : List (FileUri × String)) : Project :=
  files.foldl (fun p f => p.addFile f.1 f.2) p

theorem registry_addFiles (p : Project) (files : List (FileUri × String)) :
    (p.addFiles files).registry = p.registry.addAll files := by
  induction files generalizing p with
  | nil => rfl
  | cons f files ih => exact ih (p.addFile f.1 f.2)

theorem get?_addFiles {p : Project} {files : List (FileUri × String)} {uri : FileUri}
    {text : String} (hdistinct : (files.map Prod.fst).Nodup) (hmem : (uri, text) ∈ files) :
    ∃ id, (p.addFiles files).registry.get? uri = some (FileEntry.ofText id uri text) := by
  rw [registry_addFiles]
  exact Registry.get?_addAll_of_mem hdistinct hmem

/-- A project that starts without files has the files that were added, in their order. -/
theorem files_addFiles (settings : Settings) {files : List (FileUri × String)}
    (hdistinct : (files.map Prod.fst).Nodup) :
    ((ofSettings settings).addFiles files).files = files.map Prod.fst := by
  rw [Project.files, registry_addFiles, Registry.uris_addAll hdistinct]
  exact List.filter_eq_self.2 fun uri _ => by rfl

theorem mapperDocuments_addFiles (settings : Settings) {files : List (FileUri × String)}
    (hdistinct : (files.map Prod.fst).Nodup) :
    ((ofSettings settings).addFiles files).registry.mapperDocuments = documentsOf files := by
  rw [registry_addFiles, Registry.mapperDocuments_addAll]
  · rfl
  · exact hdistinct

end Project

end SqlMapper

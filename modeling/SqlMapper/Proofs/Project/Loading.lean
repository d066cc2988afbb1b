import SqlMapper.Files.Tree
import SqlMapper.Project.Loading
import SqlMapper.Proofs.Glob.Expansion
import SqlMapper.Proofs.Project.Registration

/-!
# What loading does to a project

Loading stops at the first thing that stands in its way, and then the project is what it was. When
nothing does, the project has the new settings and types, and its files are those that it had and
those that could be read: the files that patterns stand for have uris of their own, so that none of
them takes the place of another.

## Main definitions

* `TypeModel.FirstFailure`: the first of some files that has no type model.
* `LoadError.Arises`: the first thing that stands in the way of loading.
* `Project.HasRead`: a project with the documents that could be read.

## Main statements

* `TypeModel.load_eq_error_iff`, `gather_eq_error_iff`: why nothing can be loaded.
* `Project.adopt_hasRead`: what adopting documents does.
* `Project.load_exact`: a project is loaded as a whole or left as it was.
-/

namespace SqlMapper

variable {access : FileAccess Id} {settings : Settings} {base : String}

/-! ### Reading the type model -/

namespace TypeModel

/-- The cause is that of the first of the files that has no type model. -/
def FirstFailure (access : FileAccess Id) (paths : List String) (cause : ModelError) : Prop :=
  ∃ before path after, paths = before ++ path :: after ∧
    (∀ earlier ∈ before, ∃ model, (loadFile access earlier).run = .ok model) ∧
    (loadFile access path).run = .error cause

variable {cause : ModelError} {path : String} {paths : List String}

theorem not_firstFailure_nil : ¬FirstFailure access [] cause := by
  rintro ⟨before, path, after, hpaths, -⟩
  simp at hpaths

theorem firstFailure_cons_of_error {reason : ModelError}
    (h : (loadFile access path).run = .error reason) :
    FirstFailure access (path :: paths) cause ↔ reason = cause := by
  constructor
  · rintro ⟨_ | ⟨first, before⟩, other, after, hpaths, hbefore, hother⟩
    · cases hpaths
      exact Except.error.inj (h.symm.trans hother)
    · cases hpaths
      obtain ⟨model, hmodel⟩ := hbefore path List.mem_cons_self
      cases h.symm.trans hmodel
  · rintro rfl
    exact ⟨[], path, paths, rfl, by simp, h⟩

theorem firstFailure_cons_of_ok {model : TypeModel} (h : (loadFile access path).run = .ok model) :
    FirstFailure access (path :: paths) cause ↔ FirstFailure access paths cause := by
  constructor
  · rintro ⟨_ | ⟨first, before⟩, other, after, hpaths, hbefore, hother⟩
    · cases hpaths
      cases h.symm.trans hother
    · cases hpaths
      exact ⟨before, other, after, rfl, fun q hq => hbefore q (.tail _ hq), hother⟩
  · rintro ⟨before, other, after, rfl, hbefore, hother⟩
    refine ⟨path :: before, other, after, rfl, ?_, hother⟩
    rintro earlier (_ | ⟨_, hearlier⟩)
    · exact ⟨model, h⟩
    · exact hbefore earlier hearlier

theorem mergeFiles_eq_error_iff (model : TypeModel) (paths : List String) :
    (mergeFiles access model paths).run = .error cause ↔ FirstFailure access paths cause := by
  induction paths generalizing model with
  | nil =>
    rw [mergeFiles]
    simp [not_firstFailure_nil]
  | cons path paths ih =>
    rw [mergeFiles, Id.run_bind]
    cases h : (loadFile access path).run with
    | error reason => simp [firstFailure_cons_of_error h]
    | ok loaded => rw [firstFailure_cons_of_ok h, ← ih (model.extend loaded.classes)]

/-- No type model is had from files exactly if one of them has none. -/
theorem load_eq_error_iff :
    (load access paths).run = .error cause ↔ FirstFailure access paths cause :=
  mergeFiles_eq_error_iff empty paths

end TypeModel

/-! ### Reading everything -/

/-- The error is about the first thing that stands in the way of loading: a text that is no pattern
where type models are named, a file without a type model, or a text that is no pattern where
documents are named. -/
inductive LoadError.Arises (access : FileAccess Id) (settings : Settings) (base : String) :
    LoadError → Prop where
  | typePatterns {cause : Glob.InvalidPattern} :
    (settings.typeFiles access base).run = .error cause →
    Arises access settings base (.typePatterns cause)
  | model {typePaths : List String} {cause : ModelError} :
    (settings.typeFiles access base).run = .ok typePaths →
    TypeModel.FirstFailure access typePaths cause →
    Arises access settings base (.model cause)
  | mapperPatterns {typePaths : List String} {cause : Glob.InvalidPattern} :
    (settings.typeFiles access base).run = .ok typePaths →
    (∀ reason, ¬TypeModel.FirstFailure access typePaths reason) →
    (settings.mapperFiles access base).run = .error cause →
    Arises access settings base (.mapperPatterns cause)

theorem readDocuments_eq_map (access : FileAccess Id) (paths : List String) :
    (readDocuments access paths).run =
      paths.map fun path => (path, (access.read path).run.toOption) := by
  rw [readDocuments, List.idRun_mapM]
  rfl

theorem gather_of_ok {typePaths paths : List String} {types : TypeModel}
    (htypePaths : (settings.typeFiles access base).run = .ok typePaths)
    (htypes : (TypeModel.load access typePaths).run = .ok types)
    (hpaths : (settings.mapperFiles access base).run = .ok paths) :
    (gather access settings base).run =
      .ok ⟨settings, typePaths.length, types, (readDocuments access paths).run⟩ := by
  simp [gather, htypePaths, htypes, hpaths]

/-- Either everything is read, or there is a first thing that stands in the way. -/
theorem gather_cases (access : FileAccess Id) (settings : Settings) (base : String) :
    (∃ e : LoadError, e.Arises access settings base ∧
      (gather access settings base).run = .error e) ∨
    ∃ typePaths types paths,
      (settings.typeFiles access base).run = .ok typePaths ∧
      (TypeModel.load access typePaths).run = .ok types ∧
      (settings.mapperFiles access base).run = .ok paths ∧
      (gather access settings base).run =
        .ok ⟨settings, typePaths.length, types, (readDocuments access paths).run⟩ := by
  unfold gather
  cases htypePaths : (settings.typeFiles access base).run with
  | error cause =>
    refine .inl ⟨.typePatterns cause, .typePatterns htypePaths, ?_⟩
    simp [htypePaths]
  | ok typePaths =>
    cases htypes : (TypeModel.load access typePaths).run with
    | error cause =>
      refine .inl ⟨.model cause, .model htypePaths (TypeModel.load_eq_error_iff.1 htypes), ?_⟩
      simp [htypePaths, htypes]
    | ok types =>
      have hnone : ∀ reason, ¬TypeModel.FirstFailure access typePaths reason := by
        intro reason hfailure
        cases htypes.symm.trans (TypeModel.load_eq_error_iff.2 hfailure)
      cases hpaths : (settings.mapperFiles access base).run with
      | error cause =>
        refine .inl ⟨.mapperPatterns cause, .mapperPatterns htypePaths hnone hpaths, ?_⟩
        simp [htypePaths, htypes, hpaths]
      | ok paths =>
        exact .inr ⟨typePaths, types, paths, rfl, htypes, rfl,
          gather_of_ok htypePaths htypes hpaths⟩

theorem LoadError.Arises.gather_eq {e : LoadError} (h : e.Arises access settings base) :
    (gather access settings base).run = .error e := by
  unfold gather
  cases h with
  | typePatterns htypePaths => simp [htypePaths]
  | model htypePaths hfailure =>
    simp [htypePaths, TypeModel.load_eq_error_iff.2 hfailure]
  | @mapperPatterns typePaths _ htypePaths hnone hpaths =>
    cases htypes : (TypeModel.load access typePaths).run with
    | error reason => exact absurd (TypeModel.load_eq_error_iff.1 htypes) (hnone reason)
    | ok types => simp [htypePaths, htypes, hpaths]

theorem gather_eq_error_iff {e : LoadError} :
    (gather access settings base).run = .error e ↔ e.Arises access settings base := by
  refine ⟨fun h => ?_, LoadError.Arises.gather_eq⟩
  obtain ⟨e', harises, he⟩ | ⟨typePaths, types, paths, -, -, -, hok⟩ :=
    gather_cases access settings base
  · cases h.symm.trans he
    exact harises
  · cases h.symm.trans hok

theorem gather_eq_ok {g : Gathered} (h : (gather access settings base).run = .ok g) :
    ∃ typePaths types paths,
      (settings.typeFiles access base).run = .ok typePaths ∧
      (TypeModel.load access typePaths).run = .ok types ∧
      (settings.mapperFiles access base).run = .ok paths ∧
      g = ⟨settings, typePaths.length, types, (readDocuments access paths).run⟩ := by
  obtain ⟨e, -, he⟩ | ⟨typePaths, types, paths, htypePaths, htypes, hpaths, hok⟩ :=
    gather_cases access settings base
  · cases h.symm.trans he
  · exact ⟨typePaths, types, paths, htypePaths, htypes, hpaths, Except.ok.inj (h.symm.trans hok)⟩

/-! ### Adopting documents -/

/-- Those of the paths that can be read. -/
def FileAccess.readable (access : FileAccess Id) (paths : List String) : List String :=
  paths.filter fun path => (access.read path).run.isOk

namespace Gathered

variable {g : Gathered} {paths : List String}

theorem mem_readable (hdocuments : g.documents = (readDocuments access paths).run)
    {path text : String} (hpath : path ∈ paths) (htext : (access.read path).run = .ok text) :
    (.ofPath path, text) ∈ g.readable := by
  rw [readable, hdocuments, readDocuments_eq_map, List.filterMap_map, List.mem_filterMap]
  exact ⟨path, hpath, by simp [htext, Except.toOption]⟩

theorem map_fst_readable (hdocuments : g.documents = (readDocuments access paths).run) :
    g.readable.map Prod.fst = (access.readable paths).map FileUri.ofPath := by
  rw [readable, hdocuments, readDocuments_eq_map, FileAccess.readable]
  clear hdocuments
  induction paths with
  | nil => rfl
  | cons path paths ih =>
    rw [List.map_cons]
    cases hread : (access.read path).run with
    | error reason => simpa [hread, Except.toOption, Except.isOk, Except.toBool] using ih
    | ok text => simpa [hread, Except.toOption, Except.isOk, Except.toBool] using ih

end Gathered

namespace Project

/-- A project into which the documents at some paths have been read, with the report on it. -/
structure HasRead (access : FileAccess Id) (paths : List String) (before after : Project)
    (report : LoadReport) : Prop where
  /-- A document that can be read is there with its text. -/
  get?_read : ∀ path ∈ paths, ∀ text, (access.read path).run = .ok text →
    ∃ id, after.registry.get? (.ofPath path) = some (.ofText id (.ofPath path) text)
  /-- A document that cannot be read is as it was, if it was there at all. -/
  get?_skipped : ∀ path ∈ paths, ∀ reason, (access.read path).run = .error reason →
    after.registry.get? (.ofPath path) = before.registry.get? (.ofPath path)
  /-- So is every file that has not just been read. -/
  get?_other : ∀ uri, uri ∉ (access.readable paths).map FileUri.ofPath →
    after.registry.get? uri = before.registry.get? uri
  /-- Files that were there keep their numbers. -/
  id?_kept : ∀ uri id, before.registry.id? uri = some id → after.registry.id? uri = some id
  /-- They keep their places as well, and new ones come behind them in the order of the paths. -/
  uris_eq : after.registry.uris = before.registry.uris ++
    ((access.readable paths).map FileUri.ofPath).filter fun uri => uri ∉ before.registry.uris
  mapperFiles_eq : report.mapperFiles = (access.readable paths).length
  total_eq : report.mapperFiles + report.skippedFiles = paths.length

theorem adopt_hasRead (p : Project) {g : Gathered} {paths : List String}
    (hdistinct : (paths.map FileUri.ofPath).Nodup)
    (hdocuments : g.documents = (readDocuments access paths).run) :
    HasRead access paths p (p.adopt g) g.report := by
  have huris := Gathered.map_fst_readable hdocuments
  have hregistry : (p.adopt g).registry = p.registry.addAll g.readable := rfl
  have hnodup : (g.readable.map Prod.fst).Nodup := by
    rw [huris]
    exact hdistinct.sublist (List.filter_sublist.map _)
  have hother : ∀ uri, uri ∉ (access.readable paths).map FileUri.ofPath →
      (p.adopt g).registry.get? uri = p.registry.get? uri := by
    intro uri huri
    rw [hregistry, Registry.get?_addAll_of_not_mem (huris ▸ huri)]
  have hcount : g.report.mapperFiles = (access.readable paths).length := by
    rw [Gathered.report, ← List.length_map, huris, List.length_map]
  constructor
  case get?_read =>
    intro path hpath text htext
    exact Registry.get?_addAll_of_mem hnodup (Gathered.mem_readable hdocuments hpath htext)
  case get?_skipped =>
    -- a path that can be read is another one, so it has another uri
    intro path hpath reason hreason
    apply hother
    rw [List.mem_map]
    rintro ⟨other, hmem, heq⟩
    obtain ⟨hmem, hok⟩ := List.mem_filter.1 hmem
    cases List.inj_on_of_nodup_map hdistinct hmem hpath heq
    rw [hreason] at hok
    cases hok
  case get?_other => exact hother
  case id?_kept =>
    intro uri id hid
    exact Registry.id?_addAll hid
  case uris_eq => rw [hregistry, Registry.uris_addAll hnodup, huris]
  case mapperFiles_eq => exact hcount
  case total_eq =>
    have hskipped : g.report.skippedFiles = paths.length - g.report.mapperFiles := by
      rw [Gathered.report, hdocuments, readDocuments_eq_map, List.length_map]
    have hle : (access.readable paths).length ≤ paths.length := List.length_filter_le _ _
    omega

theorem load_eq_error_iff {p p' : Project} {e : LoadError} :
    (p.load access settings base).run = (p', .error e) ↔
      p' = p ∧ (gather access settings base).run = .error e := by
  cases h : (gather access settings base).run <;> simp [load, h, eq_comm]

theorem load_eq_ok_iff {p p' : Project} {report : LoadReport} :
    (p.load access settings base).run = (p', .ok report) ↔
      ∃ g, (gather access settings base).run = .ok g ∧ p' = p.adopt g ∧ report = g.report := by
  cases h : (gather access settings base).run <;> simp [load, h, eq_comm]

/-- Loading is atomic and exact. If it fails, the project is what it was, and the error is about the
first thing that stands in the way. If it succeeds, the project has the settings, the types in the
files that they name and the documents that could be read from the files that they name. -/
theorem load_exact (access : FileAccess Id) (p : Project) (settings : Settings) {base : String}
    (habs : Path.isAbsolute base = true) :
    (∀ p' e, (p.load access settings base).run = (p', .error e) ↔
      p' = p ∧ e.Arises access settings base) ∧
    ∀ p' report, (p.load access settings base).run = (p', .ok report) →
      ∃ typePaths types paths,
        (settings.typeFiles access base).run = .ok typePaths ∧
        (TypeModel.load access typePaths).run = .ok types ∧
        (settings.mapperFiles access base).run = .ok paths ∧
        p'.settings = settings ∧ p'.types = types ∧ HasRead access paths p p' report := by
  refine ⟨fun p' e => ?_, fun p' report h => ?_⟩
  · rw [load_eq_error_iff, gather_eq_error_iff]
  · obtain ⟨g, hgather, rfl, rfl⟩ := load_eq_ok_iff.1 h
    obtain ⟨typePaths, types, paths, htypePaths, htypes, hpaths, rfl⟩ := gather_eq_ok hgather
    have hdistinct : (paths.map FileUri.ofPath).Nodup := Glob.nodup_map_ofPath_expand habs hpaths
    exact ⟨typePaths, types, paths, htypePaths, htypes, hpaths, rfl, rfl,
      adopt_hasRead p hdistinct rfl⟩

/-- A type model, a document that can be read and one that cannot. -/
def halfReadable : FileTree :=
  FileTree.empty
    |>.write ["w", "types.json"] "\x7b\x7d".toUTF8
    |>.write ["w", "a.xml"] "<mapper/>".toUTF8
    |>.write ["w", "b.xml"] ⟨#[255]⟩

/-- Settings that name these files, one of them twice. -/
def halfReadableSettings : Settings where
  mappers := .many ["b.xml", "a.xml", "./a.xml"]
  types := some (.one "types.json")

/-- A project that has a file of its own for the document that cannot be read. -/
def earlier : Project :=
  empty.addFile (.ofPath "/w/b.xml") "<mapper namespace='b'/>"

/-- Of two documents, the one that can be read is there afterwards, and the other one is as it was.
If the type model cannot be read either, nothing changes. -/
theorem load_exact_halfReadable :
    Path.isAbsolute "/w" = true ∧
    (∃ after, (earlier.load (halfReadable.access "/") halfReadableSettings "/w").run =
        (after, .ok ⟨1, 1, 1, 0⟩) ∧
      after.settings = halfReadableSettings ∧
      after.files = [.ofPath "/w/b.xml", .ofPath "/w/a.xml"] ∧
      (∃ id, after.registry.get? (.ofPath "/w/a.xml") =
        some (.ofText id (.ofPath "/w/a.xml") "<mapper/>")) ∧
      after.registry.get? (.ofPath "/w/b.xml") = earlier.registry.get? (.ofPath "/w/b.xml")) ∧
    (earlier.load ((halfReadable.write ["w", "types.json"] ⟨#[255]⟩).access "/")
        halfReadableSettings "/w").run =
      (earlier, .error (.model (.unreadable "/w/types.json" .invalidText))) := by
  have habs : Path.isAbsolute "/w" = true := by decide
  refine ⟨habs, ?_, ?_⟩
  · have hreport : (earlier.load (halfReadable.access "/") halfReadableSettings "/w").run.2 =
        .ok ⟨1, 1, 1, 0⟩ := by decide +kernel
    obtain ⟨after, hload⟩ : ∃ after,
        (earlier.load (halfReadable.access "/") halfReadableSettings "/w").run =
          (after, .ok ⟨1, 1, 1, 0⟩) := ⟨_, by rw [← hreport]⟩
    obtain ⟨-, -, paths, -, -, hpaths, hsettings, -, hread⟩ :=
      (load_exact (halfReadable.access "/") earlier halfReadableSettings habs).2 _ _ hload
    have hexpanded : (halfReadableSettings.mapperFiles (halfReadable.access "/") "/w").run =
        .ok ["/w/b.xml", "/w/a.xml"] := by decide +kernel
    cases hpaths.symm.trans hexpanded
    refine ⟨after, hload, hsettings, ?_, ?_, ?_⟩
    · exact hread.uris_eq.trans (by decide +kernel)
    · exact hread.get?_read "/w/a.xml" (by decide) _ (by decide +kernel)
    · exact hread.get?_skipped "/w/b.xml" (by decide) .invalidText (by decide +kernel)
  · have htypePaths : (halfReadableSettings.typeFiles
        ((halfReadable.write ["w", "types.json"] ⟨#[255]⟩).access "/") "/w").run =
          .ok ["/w/types.json"] := by decide +kernel
    have hread : (((halfReadable.write ["w", "types.json"] ⟨#[255]⟩).access "/").read
        "/w/types.json").run = .error .invalidText := by decide +kernel
    apply ((load_exact _ earlier halfReadableSettings habs).1 _ _).2
    refine ⟨rfl, .model htypePaths ⟨[], "/w/types.json", [], rfl, by simp, ?_⟩⟩
    simp [TypeModel.loadFile, hread]

end Project

end SqlMapper

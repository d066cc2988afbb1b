import Mathlib.Data.String.Basic
import SqlMapper.CommandLine.Run
import SqlMapper.Files.Tree
import SqlMapper.Proofs.Json.Printer
import SqlMapper.Proofs.Project.Findings
import SqlMapper.Proofs.Project.Loading

/-!
# Checking a project

A check shows the findings of a project sorted by the uris of the files, so that what it shows does
not depend on the order in which the files were found. It counts the statements whose result maps
are defined nowhere, writes their number down, and its exit code says whether there are any.

## Main definitions

* `CommandLine.jsonReport`, `CommandLine.humanReport`: what is written about a number of findings.

## Main statements

* `Text.le_iff`: the order of texts is that of strings.
* `CommandLine.mergeSort_eq_of_perm`: findings of different files are sorted in one way only.
* `CommandLine.CheckResult.total_ofProject`: the number of findings.
* `CommandLine.CheckResult.outcome_json`, `CommandLine.CheckResult.outcome_human`: what a check
  writes.
* `CommandLine.check_exact`: checks do not depend on the order of files and count exactly.
-/

namespace SqlMapper

theorem Text.le_iff {s t : String} : Text.le s t = true ↔ s ≤ t := by
  rw [Text.le, Bool.not_eq_true', ← not_lt, String.lt_iff_toList_lt, ← List.lex_eq_true_iff_lt,
    Bool.not_eq_true]
  rfl

/-- A project shows the findings of a file once. -/
theorem Project.nodup_allDiagnostics (p : Project) : (p.allDiagnostics.map Prod.fst).Nodup := by
  have hsublist : (p.allDiagnostics.map Prod.fst).Sublist
      ((p.files.map fun uri => (uri, p.diagnostics uri)).map Prod.fst) :=
    List.filter_sublist.map _
  have hfiles : p.files.Nodup := p.registry.files.distinct
  exact hfiles.sublist (by simpa [Function.comp_def] using hsublist)

/-- The findings of a project are those in its files. -/
theorem Project.allDiagnostics_congr {p q : Project} (h : p.registry = q.registry) :
    p.allDiagnostics = q.allDiagnostics := by
  have hdiagnostics : p.diagnostics = q.diagnostics := by
    funext uri
    unfold diagnostics documentDiagnostics
    rw [h]
  unfold allDiagnostics files
  rw [h, hdiagnostics]

/-- The document in a text that is given by its characters. -/
theorem FileEntry.document?_ofList (uri : FileUri) (cs : List Char) :
    FileEntry.document? uri (String.ofList cs) =
      if Language.ofUri uri = .xml then
        ((Markup.readEvents cs).bind fun events =>
          (events.foldlM Markup.Workbench.step .empty).bind Markup.Workbench.root).toOption.map
            (Document.ofRoot uri (String.ofList cs))
      else none := by
  have hparse : Markup.parse (String.ofList cs) =
      (Markup.readEvents cs).bind fun events =>
        (events.foldlM Markup.Workbench.step .empty).bind Markup.Workbench.root := by
    rw [Markup.parse, String.toList_ofList]
    rfl
  rw [← hparse]
  unfold FileEntry.document? Document.parse
  cases Language.ofUri uri <;> cases Markup.parse (String.ofList cs) <;> rfl

namespace CommandLine

/-- Findings of different files are sorted in one way only. -/
theorem mergeSort_eq_of_perm {found found' : List (FileUri × List Diagnostic)}
    (hdistinct : (found.map Prod.fst).Nodup) (hperm : found.Perm found') :
    (found.mergeSort fun a b => Text.le a.1.text b.1.text) =
      found'.mergeSort fun a b => Text.le a.1.text b.1.text := by
  have hsorted : ∀ l : List (FileUri × List Diagnostic),
      (l.mergeSort fun a b => Text.le a.1.text b.1.text).Pairwise
        fun a b => Text.le a.1.text b.1.text = true := by
    apply List.pairwise_mergeSort
    · intro a b c hab hbc
      rw [Text.le_iff] at hab hbc ⊢
      exact hab.trans hbc
    · intro a b
      rw [Bool.or_eq_true, Text.le_iff, Text.le_iff]
      exact le_total _ _
  refine List.Perm.eq_of_pairwise ?_ (hsorted found) (hsorted found') ?_
  · -- Entries that stand on both sides of each other have one uri, and are one entry.
    intro a b ha hb hab hba
    rw [Text.le_iff] at hab hba
    have htext : a.1.text = b.1.text := hab.antisymm hba
    have huri : a.1 = b.1 := by
      cases ha' : a.1
      cases hb' : b.1
      simp_all
    rw [List.mem_mergeSort] at ha hb
    exact List.inj_on_of_nodup_map hdistinct ha (hperm.mem_iff.2 hb) huri
  · exact (List.mergeSort_perm _ _).trans (hperm.trans (List.mergeSort_perm _ _).symm)

namespace CheckResult

theorem total_eq_length (r : CheckResult) : r.total = (r.files.flatMap Prod.snd).length := by
  unfold total
  induction r.files with
  | nil => rfl
  | cons f files ih => rw [List.foldr_cons, ih, List.flatMap_cons, List.length_append]

/-- Files without findings can be left out. -/
theorem flatMap_snd_filter (found : List (FileUri × List Diagnostic)) :
    (found.filter fun f => !f.2.isEmpty).flatMap Prod.snd = found.flatMap Prod.snd := by
  induction found with
  | nil => rfl
  | cons f found ih =>
    obtain ⟨uri, diagnostics⟩ := f
    cases diagnostics with
    | nil => simpa using ih
    | cons d diagnostics => simpa using ih

/-- A check counts the statements whose result maps are defined nowhere. -/
theorem total_ofProject {project : Project} (h : project.registry.UpToDate) (report : LoadReport) :
    (ofProject project report).total =
      (danglingStatements project.registry.mapperDocuments).length := by
  have hsorted : ((ofProject project report).files.flatMap Prod.snd).Perm
      (project.allDiagnostics.flatMap Prod.snd) :=
    (List.mergeSort_perm _ _).flatMap_right _
  have hshown : project.allDiagnostics.flatMap Prod.snd =
      project.files.flatMap project.diagnostics := by
    rw [Project.allDiagnostics, flatMap_snd_filter, List.flatMap_map]
  rw [total_eq_length, hsorted.length_eq, hshown, Project.length_flatMap_diagnostics h]

/-- Each file that is shown has a finding. -/
theorem length_files_le_total (project : Project) (report : LoadReport) :
    (ofProject project report).files.length ≤ (ofProject project report).total := by
  have hsome : ∀ f ∈ (ofProject project report).files, 0 < f.2.length := by
    intro f hf
    have hshown : f ∈ project.allDiagnostics := List.mem_mergeSort.1 hf
    simpa [List.length_pos_iff] using (List.mem_filter.1 hshown).2
  rw [total_eq_length]
  generalize (ofProject project report).files = files at hsome ⊢
  induction files with
  | nil => exact Nat.zero_le _
  | cons f files ih =>
    have hf := hsome f List.mem_cons_self
    have hfiles := ih fun g hg => hsome g (List.mem_cons_of_mem _ hg)
    rw [List.flatMap_cons, List.length_append, List.length_cons]
    omega

theorem length_files_of_total_eq_one {project : Project} {report : LoadReport}
    (h : (ofProject project report).total = 1) : (ofProject project report).files.length = 1 := by
  have hle := length_files_le_total project report
  have hsome : (ofProject project report).files ≠ [] := by
    intro hnone
    rw [total_eq_length, hnone] at h
    cases h
  have hpos := List.length_pos_iff.2 hsome
  omega

end CheckResult

/-! ### What is written -/

/-- What is written for programs about a project in whose files a total of references lead
nowhere. -/
def jsonReport (report : LoadReport) (found : List (FileUri × List Diagnostic)) (total : Nat) :
    String :=
  "\x7b\n" ++
  "  \"files\": " ++ (Json.array (found.map CheckResult.fileJson)).prettyAt 1 ++ ",\n" ++
  "  \"stats\": \x7b\n" ++
  "    \"mapper_files\": " ++ toString report.mapperFiles ++ ",\n" ++
  "    \"total_warnings\": " ++ toString total ++ "\n" ++
  "  \x7d,\n" ++
  "  \"success\": " ++ (if total = 0 then "true" else "false") ++ "\n" ++
  "\x7d\n"

/-- What is written for people about such a project. -/
def humanReport (colors : Bool) (elapsed : String) (report : LoadReport)
    (found : List (FileUri × List Diagnostic)) (total : Nat) : String :=
  unlines (CheckResult.loadedLines colors report) ++
  unlines (found.flatMap fun f => f.2.flatMap (CheckResult.findingLines colors f.1)) ++
  "\n" ++
  (if total = 0 then Style.boldGreen.paint colors "✓ All result maps resolve"
    else Style.red.paint colors ("✗ Found " ++ toString total ++ " unresolved result map(s) in " ++
      toString found.length ++ " file(s)")) ++
  "\n" ++ "  " ++ Style.dimmed.paint colors "⏱" ++ " total: " ++ elapsed ++ "s\n"

namespace CheckResult

/-- The indented form of a result is its report. -/
theorem pretty_toJson (r : CheckResult) :
    r.toJson.pretty ++ "\n" = jsonReport r.report r.files r.total := by
  have hnames : Json.quote "files" = "\"files\"" ∧ Json.quote "stats" = "\"stats\"" ∧
      Json.quote "mapper_files" = "\"mapper_files\"" ∧
      Json.quote "total_warnings" = "\"total_warnings\"" ∧
      Json.quote "success" = "\"success\"" := by decide
  have hlevels : Json.indentation 0 = "" ∧ Json.indentation 1 = "  " ∧
      Json.indentation 2 = "    " := by decide
  -- the parts that the printer puts together to the lines of the report
  have hlines : "\x7b\n" = "\x7b" ++ "\n" ∧
      "  \"files\": " = "  " ++ ("\"files\"" ++ ": ") ∧
      "  \"stats\": \x7b\n" = "  " ++ ("\"stats\"" ++ (": " ++ ("\x7b" ++ "\n"))) ∧
      "    \"mapper_files\": " = "    " ++ ("\"mapper_files\"" ++ ": ") ∧
      "    \"total_warnings\": " = "    " ++ ("\"total_warnings\"" ++ ": ") ∧
      "  \x7d,\n" = "  " ++ ("\x7d" ++ ",\n") ∧
      "  \"success\": " = "  " ++ ("\"success\"" ++ ": ") ∧
      "\x7d\n" = "\x7d" ++ "\n" := by decide
  rw [toJson, Json.pretty, Json.prettyAt_ofMembers _ (List.cons_ne_nil _ _)]
  simp only [List.map_cons, List.map_nil]
  rw [Json.prettyAt_bool, Json.prettyAt_ofMembers _ (List.cons_ne_nil _ _)]
  simp only [List.map_cons, List.map_nil]
  rw [Json.prettyAt_ofNat, Json.prettyAt_ofNat]
  simp only [Text.join, Nat.reduceAdd, hnames, hlevels]
  unfold jsonReport
  generalize (Json.array (r.files.map fileJson)).prettyAt 1 = files
  simp only [hlines, String.append_assoc, String.empty_append, beq_iff_eq, -String.reduceAppend]

theorem outcome_json (colors : Bool) (elapsed : String) (r : CheckResult) :
    r.outcome colors elapsed .json =
      { code := r.exitCode, out := jsonReport r.report r.files r.total } := by
  rw [← pretty_toJson]
  simp [outcome, unlines]

theorem outcome_human (colors : Bool) (elapsed : String) (r : CheckResult) :
    r.outcome colors elapsed .human =
      { code := r.exitCode, out := humanReport colors elapsed r.report r.files r.total } := by
  simp only [outcome, unlines, lines, summaryLine, humanReport, List.map_append, List.map_cons,
    List.map_nil, String.join_append, String.join_cons, String.join_nil, String.append_assoc]
  rfl

end CheckResult

theorem run_check {m : Type → Type} [Monad m] [LawfulMonad m] {s : Surroundings m}
    {settingsFile : Option String} {project : Project} {report : LoadReport}
    (h : loadProject s settingsFile = pure (.ok (project, report))) (colors : Bool)
    (format : OutputFormat) :
    Command.run s settingsFile colors (.check format) =
      s.elapsed >>= fun elapsed =>
        pure ((CheckResult.ofProject project report).outcome colors elapsed format) := by
  rw [Command.run, h, pure_bind]

/-- With settings and what they name, the project is made of that. -/
theorem loadProject_eq_ok {s : Surroundings Id} {settingsFile : Option String} {found : Setup}
    {g : Gathered} (hsetup : (setup s settingsFile).run = .ok found)
    (hgather : (gather s.access found.settings found.base).run = .ok g) :
    loadProject s settingsFile = .ok (Project.empty.adopt g, g.report) := by
  change (loadProject s settingsFile).run = _
  simp [loadProject, hsetup, Project.load, hgather]

/-- Registering files in another order changes nothing about the findings once they are sorted by
uri. The check of a project with these files counts the statements of its mapper documents whose
result maps are defined neither in their own document nor in another one of the same namespace. It
writes the findings in this order and that number, for programs and for people, and its exit code
says whether there are any. -/
theorem check_exact (settings : Settings) {files files' : List (FileUri × String)}
    (hdistinct : (files.map Prod.fst).Nodup) (hperm : files.Perm files') :
    (((Project.ofSettings settings).addFiles files).allDiagnostics.mergeSort
        fun a b => Text.le a.1.text b.1.text) =
      (((Project.ofSettings settings).addFiles files').allDiagnostics.mergeSort
        fun a b => Text.le a.1.text b.1.text) ∧
    ∀ (project : Project) (report : LoadReport),
      project.registry = ((Project.ofSettings settings).addFiles files).registry →
      (CheckResult.ofProject project report).total =
        (danglingStatements (documentsOf files)).length ∧
      (CheckResult.ofProject project report).exitCode =
        (if 0 < (danglingStatements (documentsOf files)).length then .findings else .success) ∧
      ∀ (s : Surroundings Id) (settingsFile : Option String) (colors : Bool),
        loadProject s settingsFile = .ok (project, report) →
        (∀ format, Command.run s settingsFile colors (.check format) =
            (CheckResult.ofProject project report).outcome colors s.elapsed format ∧
          (Command.run s settingsFile colors (.check format)).code =
            (CheckResult.ofProject project report).exitCode) ∧
        ∀ found total,
          found = (((Project.ofSettings settings).addFiles files).allDiagnostics.mergeSort
            fun a b => Text.le a.1.text b.1.text) →
          total = (danglingStatements (documentsOf files)).length →
          Command.run s settingsFile colors (.check .json) =
            { code := if 0 < total then .findings else .success
              out := jsonReport report found total } ∧
          Command.run s settingsFile colors (.check .human) =
            { code := if 0 < total then .findings else .success
              out := humanReport colors s.elapsed report found total } := by
  refine ⟨?_, fun project report hregistry => ?_⟩
  · exact mergeSort_eq_of_perm (Project.nodup_allDiagnostics _)
      (Project.allDiagnostics_perm settings hdistinct hperm)
  have hupToDate : project.registry.UpToDate := by
    rw [hregistry, Project.registry_addFiles]
    exact (Registry.Reachable.empty.addAll files).upToDate
  have htotal : (CheckResult.ofProject project report).total =
      (danglingStatements (documentsOf files)).length := by
    rw [CheckResult.total_ofProject hupToDate, hregistry,
      Project.mapperDocuments_addFiles settings hdistinct]
  have hcode : (CheckResult.ofProject project report).exitCode =
      if 0 < (danglingStatements (documentsOf files)).length then .findings else .success := by
    rw [CheckResult.exitCode, htotal]
  refine ⟨htotal, hcode, fun s settingsFile colors hload => ⟨fun format => ?_, ?_⟩⟩
  · rw [run_check hload]
    exact ⟨rfl, rfl⟩
  · rintro found total rfl rfl
    have hfound : (CheckResult.ofProject project report).files =
        ((Project.ofSettings settings).addFiles files).allDiagnostics.mergeSort
          fun a b => Text.le a.1.text b.1.text := by
      rw [CheckResult.ofProject, Project.allDiagnostics_congr hregistry]
    rw [run_check hload, run_check hload, ← hcode, ← htotal, ← hfound]
    exact ⟨CheckResult.outcome_json _ _ _, CheckResult.outcome_human _ _ _⟩

/-- Two references, one of them to a result map of the other document. -/
def referring : String :=
  "<mapper><select id='x' resultMap='m'/><select id='y' resultMap='n'/></mapper>"

/-- A document that defines the result map of the first one. -/
def defining : String :=
  "<mapper><resultMap id='m'/></mapper>"

/-- The two documents under their uris, the referring one first. -/
def halfResolved : List (FileUri × String) :=
  [(.ofPath "/w/b.xml", referring), (.ofPath "/w/a.xml", defining)]

/-- A directory with both documents and with settings that name them. -/
def halfResolvedSurroundings : Surroundings Id where
  access := FileTree.empty
    |>.write ["w", "settings.json"] "\x7b\"mappers\": [\"b.xml\", \"a.xml\"]\x7d".toUTF8
    |>.write ["w", "a.xml"] defining.toUTF8
    |>.write ["w", "b.xml"] referring.toUTF8
    |>.access "/w"
  cwd := "/w"
  colors := {}
  elapsed := "0.00"

theorem length_danglingStatements_halfResolved :
    (danglingStatements (documentsOf halfResolved)).length = 1 := by
  unfold halfResolved referring defining
  -- as lists of characters the texts do not have to be decoded
  rw [documentsOf_cons, documentsOf_cons, FileEntry.document?_ofList, FileEntry.document?_ofList]
  decide +kernel

/-- What the settings of the directory name are the two documents. -/
theorem exists_loadProject_halfResolved :
    ∃ project : Project, project.registry = (Project.empty.addFiles halfResolved).registry ∧
      loadProject halfResolvedSurroundings (some "settings.json") =
        .ok (project, ⟨2, 0, 0, 0⟩) := by
  have hsetup : (setup halfResolvedSurroundings (some "settings.json")).run =
      .ok ⟨{ mappers := .many ["b.xml", "a.xml"] }, "/w"⟩ := by decide +kernel
  have hmapperFiles : (Settings.mapperFiles halfResolvedSurroundings.access
      { mappers := .many ["b.xml", "a.xml"] } "/w").run = .ok ["/w/b.xml", "/w/a.xml"] := by
    decide +kernel
  have hreferring : (halfResolvedSurroundings.access.read "/w/b.xml").run = .ok referring := by
    decide +kernel
  have hdefining : (halfResolvedSurroundings.access.read "/w/a.xml").run = .ok defining := by
    decide +kernel
  have hgather := gather_of_ok rfl rfl hmapperFiles
  rw [readDocuments_eq_map, List.map_cons, List.map_cons, hreferring, hdefining] at hgather
  refine ⟨_, ?_, loadProject_eq_ok hsetup hgather⟩
  rw [Project.registry_addFiles]
  rfl

/-- What a check of this directory writes for programs around the findings. -/
def halfResolvedJson (files : String) : String :=
  "\x7b\n" ++
  "  \"files\": " ++ files ++ ",\n" ++
  "  \"stats\": \x7b\n" ++
  "    \"mapper_files\": " ++ "2" ++ ",\n" ++
  "    \"total_warnings\": " ++ "1" ++ "\n" ++
  "  \x7d,\n" ++
  "  \"success\": " ++ "false" ++ "\n" ++
  "\x7d\n"

/-- What a check of this directory writes for people around the findings. -/
def halfResolvedText (findings : String) : String :=
  "✓ Loaded 2 mapper file(s) and 0 class(es)\n" ++ findings ++
  "\n" ++
  ("✗ Found " ++ "1" ++ " unresolved result map(s) in " ++ "1" ++ " file(s)") ++
  "\n" ++ "  " ++ "⏱" ++ " total: " ++ "0.00" ++ "s\n"

theorem exists_halfResolvedJson (found : List (FileUri × List Diagnostic)) :
    ∃ files, jsonReport ⟨2, 0, 0, 0⟩ found 1 = halfResolvedJson files :=
  ⟨(Json.array (found.map CheckResult.fileJson)).prettyAt 1, rfl⟩

theorem exists_halfResolvedText {found : List (FileUri × List Diagnostic)}
    (h : found.length = 1) :
    ∃ findings, humanReport false "0.00" ⟨2, 0, 0, 0⟩ found 1 = halfResolvedText findings := by
  refine ⟨unlines (found.flatMap fun f => f.2.flatMap (CheckResult.findingLines false f.1)), ?_⟩
  have hloaded : unlines (CheckResult.loadedLines false ⟨2, 0, 0, 0⟩) =
      "✓ Loaded 2 mapper file(s) and 0 class(es)\n" := by decide +kernel
  rw [humanReport, h, hloaded]
  rfl

/-- Whichever of the two documents comes first, one reference is found to lead nowhere, and a check
of their directory says so. -/
theorem check_exact_halfResolved :
    (halfResolved.map Prod.fst).Nodup ∧ halfResolved.Perm halfResolved.reverse ∧
      ((Project.empty.addFiles halfResolved).allDiagnostics.mergeSort
          fun a b => Text.le a.1.text b.1.text) =
        ((Project.empty.addFiles halfResolved.reverse).allDiagnostics.mergeSort
          fun a b => Text.le a.1.text b.1.text) ∧
      ∃ project report files findings,
        loadProject halfResolvedSurroundings (some "settings.json") = .ok (project, report) ∧
        project.registry = (Project.empty.addFiles halfResolved).registry ∧
        (CheckResult.ofProject project report).total = 1 ∧
        Command.run halfResolvedSurroundings (some "settings.json") false (.check .json) =
          { code := .findings, out := halfResolvedJson files } ∧
        Command.run halfResolvedSurroundings (some "settings.json") false (.check .human) =
          { code := .findings, out := halfResolvedText findings } := by
  have hdistinct : (halfResolved.map Prod.fst).Nodup := by decide
  have hperm : halfResolved.Perm halfResolved.reverse := (List.reverse_perm _).symm
  obtain ⟨project, hregistry, hload⟩ := exists_loadProject_halfResolved
  obtain ⟨hsorted, hcheck⟩ := check_exact Settings.standard hdistinct hperm
  obtain ⟨htotal, -, hrun⟩ := hcheck project _ hregistry
  obtain ⟨hjson, hhuman⟩ :=
    (hrun _ _ false hload).2 _ 1 rfl length_danglingStatements_halfResolved.symm
  have hone := CheckResult.length_files_of_total_eq_one
    ((hcheck (Project.empty.addFiles halfResolved) ⟨2, 0, 0, 0⟩ rfl).1.trans
      length_danglingStatements_halfResolved)
  obtain ⟨files, hfiles⟩ := exists_halfResolvedJson
    ((Project.empty.addFiles halfResolved).allDiagnostics.mergeSort
      fun a b => Text.le a.1.text b.1.text)
  obtain ⟨findings, hfindings⟩ := exists_halfResolvedText hone
  refine ⟨hdistinct, hperm, hsorted, project, _, files, findings, hload, hregistry,
    htotal.trans length_danglingStatements_halfResolved, ?_, ?_⟩
  · exact hjson.trans (congrArg (Outcome.mk .findings · "") hfiles)
  · exact hhuman.trans (congrArg (Outcome.mk .findings · "") hfindings)

end CommandLine

end SqlMapper

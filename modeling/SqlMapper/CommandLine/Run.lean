import SqlMapper.CommandLine.Outcome
import SqlMapper.CommandLine.Style
import SqlMapper.Json.Printer
import SqlMapper.Log.Entry
import SqlMapper.Log.Template
import SqlMapper.Project.Completion
import SqlMapper.Project.Diagnostics
import SqlMapper.Project.Navigation
import SqlMapper.Settings.Discovery

/-!
# Commands

Carrying out requests. Commands on a project first find its settings, then load it; the file that a
command is about is read last and need not belong to the project.

## Main definitions

* `Surroundings`: where a command runs.
* `loadProject`: the project around the working directory.
* `Request.run`: carries out a request.
-/

namespace SqlMapper.CommandLine

/-- Where a command runs. -/
structure Surroundings (m : Type → Type) where
  access : FileAccess m
  /-- The working directory. -/
  cwd : String
  colors : ColorSurroundings
  /-- The time since the start, in seconds. -/
  elapsed : m String

/-- What the version is shown as. -/
def versionText : String := "mapper 0.1.0"

/-- Settings, and the directory that their patterns are seen from. -/
structure Setup where
  settings : Settings
  base : String
  deriving Repr, DecidableEq

section Projects

variable {m : Type → Type} [Monad m]

/-- The settings in a file, with its directory. -/
def setupFrom (s : Surroundings m) (path : String) : m (Except Failure Setup) := do
  match ← Settings.load s.access path with
  | .error e => pure (.error (.settings path e))
  | .ok settings =>
    pure (.ok ⟨settings, (Path.parent? (Path.absolute s.cwd path)).getD s.cwd⟩)

/-- The settings in the file given or else in the nearest one; standard settings without either. -/
def setup (s : Surroundings m) (settingsFile : Option String) : m (Except Failure Setup) := do
  let found ← match settingsFile with
    | some path => pure (some path)
    | none => Settings.find? s.access s.cwd
  match found with
  | some path => setupFrom s path
  | none => pure (.ok ⟨Settings.standard, s.cwd⟩)

/-- The project around the working directory, and how much of it has been loaded. -/
def loadProject (s : Surroundings m) (settingsFile : Option String) :
    m (Except Failure (Project × LoadReport)) := do
  match ← setup s settingsFile with
  | .error e => pure (.error e)
  | .ok setup =>
    match ← Project.empty.load s.access setup.settings setup.base with
    | (_, .error e) => pure (.error (.project e))
    | (project, .ok report) => pure (.ok (project, report))

/-- The project with a file, and the uri of the file. -/
def openFile (s : Surroundings m) (project : Project) (file : String) :
    m (Except Failure (Project × FileUri)) := do
  let path := Path.absolute s.cwd file
  match ← s.access.read path with
  | .error e => pure (.error (.unreadable path e))
  | .ok text =>
    let uri := FileUri.ofPath path
    pure (.ok (project.addFile uri text, uri))

/-- The project around the working directory with a file, and the uri of the file. -/
def loadWithFile (s : Surroundings m) (settingsFile : Option String) (file : String) :
    m (Except Failure (Project × FileUri)) := do
  match ← loadProject s settingsFile with
  | .error e => pure (.error e)
  | .ok (project, _) => openFile s project file

end Projects

/-! ### Completion -/

/-- An offered name, for people. -/
def itemLine (colors : Bool) (item : CompletionItem) : String :=
  Style.bold.paint colors item.label ++ "  " ++ Style.cyan.paint colors item.kind.name ++ "  " ++
    Style.dimmed.paint colors item.detail

/-- A completion list, for people. -/
def completionLines (colors : Bool) (list : CompletionList) : List String :=
  if list.visible.isEmpty then [Style.yellow.paint colors "No completions"]
  else list.visible.map (itemLine colors)

/-- An offered name, for programs. -/
def itemJson (item : CompletionItem) : Json :=
  .ofMembers [("detail", .ofText item.detail), ("kind", .ofText item.kind.name),
    ("label", .ofText item.label)]

/-- A completion list, for programs. -/
def completionJson (list : CompletionList) : Json :=
  let filterText := match list.filterText with
    | some text => .ofText text
    | none => .null
  .ofMembers [("items", .array (list.items.map itemJson)), ("prefix", filterText)]

/-- The outcome of a completion. -/
def completionOutcome (colors : Bool) (format : OutputFormat) (list : CompletionList) : Outcome :=
  let lines := match format with
    | .human => completionLines colors list
    | .json => [(completionJson list).pretty]
  { code := .success, out := unlines lines }

/-! ### Checks -/

/-- The findings of a check, and what was checked. -/
structure CheckResult where
  report : LoadReport
  files : List (FileUri × List Diagnostic)
  deriving Repr, DecidableEq

namespace CheckResult

/-- The findings in a project, by the order of the uris of its files. -/
def ofProject (project : Project) (report : LoadReport) : CheckResult :=
  ⟨report, project.allDiagnostics.mergeSort fun a b => Text.le a.1.text b.1.text⟩

/-- The number of findings. -/
def total (r : CheckResult) : Nat :=
  r.files.foldr (fun f n => f.2.length + n) 0

/-- The exit code of a check. -/
def exitCode (r : CheckResult) : ExitCode :=
  if r.total > 0 then .findings else .success

/-- A finding, for people. -/
def findingLines (colors : Bool) (file : FileUri) (d : Diagnostic) : List String :=
  ["",
    file.path ++ ":" ++ d.region.start.render ++ ": " ++
      Style.boldYellow.paint colors (d.severity.name ++ ":") ++ " " ++
      Style.yellow.paint colors d.message,
    "  " ++ Style.dimmed.paint colors "rule" ++ ": " ++ Style.dimmed.paint colors d.rule]

/-- What was loaded, for people. -/
def loadedLines (colors : Bool) (report : LoadReport) : List String :=
  let loaded := "✓ Loaded " ++ toString report.mapperFiles ++ " mapper file(s) and " ++
    toString report.classes ++ " class(es)"
  let skipped := "⚠ Skipped " ++ toString report.skippedFiles ++ " unreadable file(s)"
  Style.green.paint colors loaded ::
    (if report.skippedFiles > 0 then [Style.yellow.paint colors skipped] else [])

/-- The sum of the findings, for people. -/
def summaryLine (colors : Bool) (r : CheckResult) : String :=
  if r.total = 0 then Style.boldGreen.paint colors "✓ All result maps resolve"
  else Style.red.paint colors ("✗ Found " ++ toString r.total ++ " unresolved result map(s) in " ++
    toString r.files.length ++ " file(s)")

/-- The result of a check, for people. -/
def lines (colors : Bool) (elapsed : String) (r : CheckResult) : List String :=
  loadedLines colors r.report ++
    (r.files.flatMap fun f => f.2.flatMap (findingLines colors f.1)) ++
    ["", summaryLine colors r,
      "  " ++ Style.dimmed.paint colors "⏱" ++ " total: " ++ elapsed ++ "s"]

/-- A position counted from one, for programs. -/
def positionJson (p : Position) : Json :=
  .ofMembers [("column", .ofNat (p.character + 1)), ("line", .ofNat (p.line + 1))]

/-- A finding, for programs. -/
def findingJson (d : Diagnostic) : Json :=
  .ofMembers [
    ("location", .ofMembers [("end", positionJson d.region.stop),
      ("start", positionJson d.region.start)]),
    ("message", .ofText d.message),
    ("rule", .ofText d.rule),
    ("severity", .ofText d.severity.name)]

/-- The findings in a file, for programs. -/
def fileJson (file : FileUri × List Diagnostic) : Json :=
  .ofMembers [("file", .ofText file.1.path), ("warnings", .array (file.2.map findingJson))]

/-- The result of a check, for programs. -/
def toJson (r : CheckResult) : Json :=
  .ofMembers [
    ("files", .array (r.files.map fileJson)),
    ("stats", .ofMembers [("mapper_files", .ofNat r.report.mapperFiles),
      ("total_warnings", .ofNat r.total)]),
    ("success", .bool (r.total == 0))]

/-- The outcome of a check. -/
def outcome (colors : Bool) (elapsed : String) (format : OutputFormat) (r : CheckResult) :
    Outcome :=
  let lines := match format with
    | .human => r.lines colors elapsed
    | .json => [r.toJson.pretty]
  { code := r.exitCode, out := unlines lines }

end CheckResult

/-! ### Other outcomes -/

/-- The mark in front of what went wrong. -/
def crossed (colors : Bool) (text : String) : String :=
  unlines [Style.red.paint colors "✗" ++ " " ++ text]

/-- The outcome of a failure. -/
def Failure.outcome (colors : Bool) (e : Failure) : Outcome :=
  { code := e.exitCode, err := crossed colors (Text.join ": " e.causes) }

/-- The outcome of putting logged values into a statement. Without anything to put in, the statement
is shown as it stands. -/
def formatOutcome (sql parameters : String) : Outcome :=
  let statement := Template.fill sql (Log.literals (Log.entries parameters))
  { code := .success, out := unlines [if statement = "" then Text.trim sql else statement] }

/-- The outcome of looking for a result map. -/
def resolveOutcome (colors : Bool) (id : String) : Option Location → Outcome
  | some location =>
    { code := .success
      out := unlines [location.file.path ++ ":" ++ location.region.start.render] }
  | none => { code := .findings, err := crossed colors (undefinedResultMap id) }

/-! ### Requests -/

section Running

variable {m : Type → Type} [Monad m]

/-- Carries out a command. -/
def Command.run (s : Surroundings m) (settingsFile : Option String) (colors : Bool) :
    Command → m Outcome
  | .complete file line character format => do
    match ← loadWithFile s settingsFile file with
    | .error e => pure (e.outcome colors)
    | .ok (project, uri) =>
      let list := (project.completions? uri ⟨line - 1, character - 1⟩).getD CompletionList.empty
      pure (completionOutcome colors format list)
  | .check format => do
    match ← loadProject s settingsFile with
    | .error e => pure (e.outcome colors)
    | .ok (project, report) =>
      pure ((CheckResult.ofProject project report).outcome colors (← s.elapsed) format)
  | .substitute sql parameters => pure (formatOutcome sql parameters)
  | .resolve file id => do
    match ← loadWithFile s settingsFile file with
    | .error e => pure (e.outcome colors)
    | .ok (project, uri) =>
      pure (resolveOutcome colors id (project.resultMapLocation? uri id))

/-- Carries out a request. -/
def Request.run (s : Surroundings m) : Request → m Outcome
  | .version => pure { code := .success, out := unlines [versionText] }
  | .command settingsFile colors what =>
    what.run s settingsFile (usesColors colors s.colors)

end Running

end SqlMapper.CommandLine

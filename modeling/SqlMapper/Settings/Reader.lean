import SqlMapper.Files.Access
import SqlMapper.Json.Datum
import SqlMapper.Path
import SqlMapper.Settings.Basic
import SqlMapper.Yaml.Datum

/-!
# Reading settings

Settings are written in YAML or JSON, which the name of their file decides. What is not set has its
standard value. The settings read are checked before they are used.

## Main definitions

* `SettingsError`: why there are no settings.
* `Settings.ofText`: the settings in a text.
* `Settings.load`: the settings in a file.
-/

namespace SqlMapper

/-- Why there are no settings to be had. -/
inductive SettingsError where
  | unreadable (reason : ReadError)
  | invalid (path : String) (problem : SettingsProblem)
  | unsupported (path : String)
  deriving Repr, DecidableEq

/-- What people are told about the reason. -/
def SettingsError.message : SettingsError → String
  | unreadable reason => "Failed to read config file: " ++ reason.message
  | invalid path problem => "Invalid config at " ++ path ++ ": " ++ problem.message
  | unsupported path => "Unsupported config format: " ++ path

/-- What people are told about the reason and about what caused it. -/
def SettingsError.causes (e : SettingsError) : List String :=
  match e with
  | unreadable reason => [e.message, reason.message]
  | _ => [e.message]

namespace Patterns

/-- One pattern, or a list of them. -/
def read? {α : Type} [Datum α] (data : α) : Option Patterns :=
  match Datum.properText? data with
  | some pattern => some (.one pattern)
  | none => ((Datum.properItems? data).bind fun items => items.mapM Datum.properText?).map .many

end Patterns

namespace Markers

/-- The names of the marks, in order. -/
def fieldNames : List String :=
  ["placeholder", "paramPrefix", "preparedParamPrefix", "paramSuffix", "separator",
    "paramAnnotation", "maxDepth"]

/-- The marks that data sets. -/
def read? {α : Type} [Datum α] (data : α) : Option Markers := do
  let r ← Record.read? fieldNames data
  let d := standard
  let placeholder ← r.field? "placeholder" d.placeholder Datum.text?
  let opener ← r.field? "paramPrefix" d.opener Datum.text?
  let textOpener ← r.field? "preparedParamPrefix" d.textOpener Datum.text?
  let closer ← r.field? "paramSuffix" d.closer Datum.text?
  let separator ← r.field? "separator" d.separator Datum.text?
  let annotationName ← r.field? "paramAnnotation" d.annotationName Datum.text?
  let maxDepth ← r.field? "maxDepth" d.maxDepth Datum.natural?
  some ⟨placeholder, opener, textOpener, closer, separator, annotationName, maxDepth⟩

end Markers

namespace Settings

/-- The settings that data makes. -/
def read? {α : Type} [Datum α] (data : α) : Option Settings := do
  let r ← Record.read? ["mappers", "types", "completion"] data
  let mappers ← r.field? "mappers" standard.mappers Patterns.read?
  let types ← r.field? "types" none (Datum.optional? Patterns.read?)
  let markers ← r.field? "completion" Markers.standard Markers.read?
  some ⟨mappers, types, markers⟩

/-- The settings in a YAML text. A blank text sets nothing. -/
def ofYaml (text : String) : Except SettingsProblem Settings :=
  if Text.isBlank text then .ok standard
  else
    match (Yaml.parse? text).bind fun node => read? (node.getD Yaml.Node.empty) with
    | some settings => .ok settings
    | none => .error .yaml

/-- The settings in a JSON text. -/
def ofJson (text : String) : Except SettingsProblem Settings :=
  match (Json.parse? text).bind read? with
  | some settings => .ok settings
  | none => .error .json

/-- The settings in a text in either format. -/
def ofEither (text : String) : Except SettingsProblem Settings :=
  match ofYaml text with
  | .ok settings => .ok settings
  | .error _ => ofJson text

/-- The name of a file that holds settings in either format. -/
def plainFileName : String := ".mapperrc"

/-- The reader for the format that the name of a file stands for. -/
def reader? (path : String) : Option (String → Except SettingsProblem Settings) :=
  match (Path.extension? path).getD "" with
  | "yml" | "yaml" => some ofYaml
  | "json" => some ofJson
  | "" => if Path.fileName? path = some plainFileName then some ofEither else none
  | _ => none

/-- The settings, if they break no rule. -/
def checked (s : Settings) : Except SettingsProblem Settings :=
  match s.problem? with
  | some problem => .error problem
  | none => .ok s

/-- The settings in the text of a file. -/
def ofText (path text : String) : Except SettingsError Settings :=
  match reader? path with
  | none => .error (.unsupported path)
  | some reader => ((reader text).bind checked).mapError (.invalid path)

/-- The settings in a file. -/
def load {m : Type → Type} [Monad m] (access : FileAccess m) (path : String) :
    m (Except SettingsError Settings) := do
  match ← access.read path with
  | .ok text => pure (ofText path text)
  | .error reason => pure (.error (.unreadable reason))

end Settings

end SqlMapper

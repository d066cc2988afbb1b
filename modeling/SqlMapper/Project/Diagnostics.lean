import SqlMapper.Document.Resolution
import SqlMapper.Project.Basic

/-!
# Diagnostics

Warnings about references to result maps that are defined nowhere.

## Main definitions

* `Severity`: how bad a finding is.
* `Diagnostic`: a finding and its place.
* `Project.diagnostics`: the findings in a file.
* `Project.allDiagnostics`: the findings in all files.
-/

namespace SqlMapper

/-- How bad a finding is. -/
inductive Severity where
  | error
  | warning
  | information
  | hint
  deriving Repr, DecidableEq

namespace Severity

/-- All severities, the worst first. -/
def all : List Severity :=
  [error, warning, information, hint]

/-- The word for a severity. -/
def name : Severity → String
  | error => "error"
  | warning => "warning"
  | information => "info"
  | hint => "hint"

/-- Whether the finding is an error. -/
def isError : Severity → Bool
  | error => true
  | _ => false

/-- Whether the finding is a warning or worse. -/
def isWarningOrWorse : Severity → Bool
  | error | warning => true
  | _ => false

end Severity

/-- A finding and its place. -/
structure Diagnostic where
  region : Region
  severity : Severity
  message : String
  /-- The rule that is broken. -/
  rule : String
  deriving Repr, DecidableEq

/-- What people are told about an id that stands for no result map. -/
def undefinedResultMap (id : String) : String :=
  "Result map '" ++ id ++ "' is not defined"

/-- The rule that every reference to a result map has a target. -/
def unresolvedResultMapRule : String := "unresolved-result-map"

namespace Document

/-- The references of a document that have no target in a project. -/
def unresolvedReferences (d : Document) (project : List Document) : List AttributeValue :=
  (d.statements.filterMap (·.resultMap)).filter fun value =>
    (resolveResultMap? value.value d project).isNone

/-- The finding about a reference without a target. -/
def unresolvedReference (lines : LineIndex) (value : AttributeValue) : Diagnostic :=
  ⟨lines.region value.span, .warning, undefinedResultMap value.value, unresolvedResultMapRule⟩

end Document

namespace Project

/-- The findings in a document of a file. -/
def documentDiagnostics (p : Project) (entry : FileEntry) (d : Document) : List Diagnostic :=
  if !d.isMapper then []
  else (d.unresolvedReferences p.registry.mapperDocuments).map
    (Document.unresolvedReference entry.lines)

/-- The findings in a file, in the order of their places. -/
def diagnostics (p : Project) (uri : FileUri) : List Diagnostic :=
  match p.registry.get? uri with
  | some entry =>
    match entry.document with
    | some d => p.documentDiagnostics entry d
    | none => []
  | none => []

/-- The findings in every file that has some, in the order of the files. -/
def allDiagnostics (p : Project) : List (FileUri × List Diagnostic) :=
  (p.files.map fun uri => (uri, p.diagnostics uri)).filter fun found => !found.2.isEmpty

end Project

end SqlMapper

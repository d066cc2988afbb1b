import SqlMapper.Glob.Expansion
import SqlMapper.Model.Reader
import SqlMapper.Project.Basic

/-!
# Loading a project

The files that settings name are read into a project. A type model that cannot be had is an error,
and then the project stays as it was. Documents that cannot be read are left out.

## Main definitions

* `LoadError`: why a project cannot be loaded.
* `Gathered`: what has been read.
* `Project.adopt`: the project with what has been read.
* `Project.load`: reading and adopting.
-/

namespace SqlMapper

/-- Why a project cannot be loaded. -/
inductive LoadError where
  | typePatterns (cause : Glob.InvalidPattern)
  | model (cause : ModelError)
  | mapperPatterns (cause : Glob.InvalidPattern)
  deriving Repr, DecidableEq

/-- What people are told about the reason and about what caused it. -/
def LoadError.causes : LoadError → List String
  | typePatterns cause => ["Failed to expand type model patterns", cause.message]
  | model cause => "Failed to load type model" :: cause.causes
  | mapperPatterns cause => ["Failed to expand mapper patterns", cause.message]

/-- What has been read from files. -/
structure Gathered where
  settings : Settings
  typeFiles : Nat
  types : TypeModel
  /-- The paths of documents, with their texts if these could be read. -/
  documents : List (String × Option String)

/-- How much has been loaded. -/
structure LoadReport where
  mapperFiles : Nat
  /-- The number of documents that could not be read. -/
  skippedFiles : Nat
  typeFiles : Nat
  classes : Nat
  deriving Repr, DecidableEq

namespace Gathered

/-- The documents that could be read, under their uris. -/
def readable (g : Gathered) : List (FileUri × String) :=
  g.documents.filterMap fun d => d.2.map fun text => (FileUri.ofPath d.1, text)

/-- The report on what has been read. -/
def report (g : Gathered) : LoadReport where
  mapperFiles := g.readable.length
  skippedFiles := g.documents.length - g.readable.length
  typeFiles := g.typeFiles
  classes := g.types.size

end Gathered

section Access

variable {m : Type → Type} [Monad m]

/-- The files that hold the documents of a project. -/
def Settings.mapperFiles (access : FileAccess m) (s : Settings) (base : String) :
    m (Except Glob.InvalidPattern (List String)) :=
  Glob.expand access base s.mappers.toList

/-- The files that hold the type model of a project. -/
def Settings.typeFiles (access : FileAccess m) (s : Settings) (base : String) :
    m (Except Glob.InvalidPattern (List String)) :=
  Glob.expand access base ((s.types.map Patterns.toList).getD [])

/-- The texts of those paths that can be read. -/
def readDocuments (access : FileAccess m) (paths : List String) :
    m (List (String × Option String)) :=
  paths.mapM fun path => do pure (path, (← access.read path).toOption)

/-- Reads what settings name, seen from a directory: the type model first. -/
def gather (access : FileAccess m) (settings : Settings) (base : String) :
    m (Except LoadError Gathered) := do
  match ← settings.typeFiles access base with
  | .error e => pure (.error (.typePatterns e))
  | .ok typePaths =>
    match ← TypeModel.load access typePaths with
    | .error e => pure (.error (.model e))
    | .ok types =>
      match ← settings.mapperFiles access base with
      | .error e => pure (.error (.mapperPatterns e))
      | .ok paths =>
        let documents ← readDocuments access paths
        pure (.ok ⟨settings, typePaths.length, types, documents⟩)

namespace Project

/-- The project with what has been read. Files that it has already stay. -/
def adopt (p : Project) (g : Gathered) : Project :=
  ⟨g.settings, g.types, g.readable.foldl (fun r d => r.add d.1 d.2) p.registry⟩

/-- The project with what settings name, and a report; on an error, the project as it was. -/
def load (access : FileAccess m) (p : Project) (settings : Settings) (base : String) :
    m (Project × Except LoadError LoadReport) := do
  match ← gather access settings base with
  | .ok g => pure (p.adopt g, .ok g.report)
  | .error e => pure (p, .error e)

end Project

end Access

end SqlMapper

import SqlMapper.Model.Basic
import SqlMapper.Project.Registry
import SqlMapper.Settings.Basic

/-!
# Projects

A project has settings, a type model and files. Questions are put to a project as it stands, and
changing it makes another project, so what was asked earlier stays as it was.

## Main definitions

* `Project`: settings, type model and files.
* `Project.addFile`, `Project.removeFile`, `Project.setTypes`, `Project.setSettings`: changes.
-/

namespace SqlMapper

/-- Settings, type model and files. -/
structure Project where
  settings : Settings
  types : TypeModel
  registry : Registry

namespace Project

/-- The project without files and types, under these settings. -/
def ofSettings (settings : Settings) : Project :=
  ⟨settings, TypeModel.empty, Registry.empty⟩

/-- The project that has and sets nothing. -/
def empty : Project :=
  ofSettings Settings.standard

instance : Inhabited Project :=
  ⟨empty⟩

/-- The project with a file added or given a new text. -/
def addFile (p : Project) (uri : FileUri) (text : String) : Project :=
  { p with registry := p.registry.add uri text }

/-- The project without a file. -/
def removeFile (p : Project) (uri : FileUri) : Project :=
  { p with registry := p.registry.remove uri }

/-- The project with another type model. -/
def setTypes (p : Project) (types : TypeModel) : Project :=
  { p with types }

/-- The project with other settings. -/
def setSettings (p : Project) (settings : Settings) : Project :=
  { p with settings }

/-- The uris of the files, in order. -/
def files (p : Project) : List FileUri :=
  p.registry.uris

/-- The text of a file. -/
def text? (p : Project) (uri : FileUri) : Option String :=
  (p.registry.get? uri).map (·.text)

end Project

end SqlMapper

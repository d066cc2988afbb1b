import SqlMapper.Document.Caret
import SqlMapper.Document.Resolution
import SqlMapper.Project.Basic

/-!
# Navigation in a project

From the id of a result map, or from the reference under a caret, to the place where the result map
is defined.

## Main definitions

* `Location`: a region of a file.
* `Project.resultMapLocation?`: where the result map of an id is defined.
* `Project.definition?`, `Project.definitions?`: where the result map under a caret is defined.
-/

namespace SqlMapper

/-- A region of a file. -/
structure Location where
  file : FileUri
  region : Region
  deriving Repr, DecidableEq

namespace Project

/-- The place of the id of the result map that `id` stands for in a file. -/
def resultMapLocation? (p : Project) (uri : FileUri) (id : String) : Option Location := do
  let entry ← p.registry.get? uri
  let document ← entry.document
  let target ← resolveResultMap? id document p.registry.mapperDocuments
  let defining ← p.registry.get? target.uri
  some ⟨target.uri, defining.lines.region target.definition.idSpan⟩

/-- The place of the id of the result map that the attribute value at a position refers to. -/
def definition? (p : Project) (uri : FileUri) (position : Position) : Option Location := do
  let entry ← p.registry.get? uri
  let document ← entry.document
  let offset ← entry.lines.offset? position
  let value ← document.referenceAt? offset
  p.resultMapLocation? uri value.value

/-- All places where the result map at a position is defined, as an editor asks for them: there is
one, or no answer. -/
def definitions? (p : Project) (uri : FileUri) (position : Position) : Option (List Location) :=
  (p.definition? uri position).map fun location => [location]

end Project

end SqlMapper

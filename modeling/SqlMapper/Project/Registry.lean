import SqlMapper.Document.Basic
import SqlMapper.LineIndex
import SqlMapper.Table

/-!
# Registry of files

The files of a project in the order in which they came in, each with a number that it keeps as long
as it stays. What is derived from the text of a file is derived when the text comes in. Numbers are
natural numbers and never used again; a count in words of 32 bits gives the same numbers only while
fewer than `2 ^ 32` new files have come in.

## Main definitions

* `FileEntry`: a file with what is derived from its text.
* `Registry.add`, `Registry.remove`: changing the registry.
* `Registry.mapperDocuments`: the documents of mapped statements.

## Main statements

* `Registry.get?_add`, `Registry.get?_remove`: what a change does to the files.
* `Registry.uris_add`, `Registry.uris_remove`: what a change does to their order.
-/

namespace SqlMapper

/-- A file of a project. -/
structure FileEntry where
  /-- The number of the file, which no other file has before or after it. -/
  id : Nat
  uri : FileUri
  language : Language
  text : String
  lines : LineIndex
  /-- The document in the text; none if the text is in another language or malformed. -/
  document : Option Document
  deriving Repr, DecidableEq

namespace FileEntry

/-- The document in the text of a file. -/
def document? (uri : FileUri) (text : String) : Option Document :=
  match Language.ofUri uri with
  | .xml => (Document.parse uri text).toOption
  | _ => none

/-- The file with this number, uri and text. -/
def ofText (id : Nat) (uri : FileUri) (text : String) : FileEntry :=
  ⟨id, uri, Language.ofUri uri, text, LineIndex.ofText text, document? uri text⟩

end FileEntry

/-- Files by uri, in the order in which they came in. -/
structure Registry where
  /-- The number of the next new file: how many new files have come in, without a bound. -/
  nextId : Nat
  files : Table FileUri FileEntry

namespace Registry

/-- The registry without files. -/
def empty : Registry :=
  ⟨0, Table.empty⟩

instance : Inhabited Registry :=
  ⟨empty⟩

/-- The file with this uri. -/
def get? (r : Registry) (uri : FileUri) : Option FileEntry :=
  r.files.get? uri

/-- The number of the file with this uri. -/
def id? (r : Registry) (uri : FileUri) : Option Nat :=
  (r.get? uri).map (·.id)

/-- The uri of the file with this number. -/
def uri? (r : Registry) (id : Nat) : Option FileUri :=
  (r.files.values.find? fun entry => entry.id == id).map (·.uri)

/-- Whether the registry has a file with this uri. -/
def contains (r : Registry) (uri : FileUri) : Bool :=
  r.files.contains uri

/-- The number that a file has once it is added. -/
def idFor (r : Registry) (uri : FileUri) : Nat :=
  (r.id? uri).getD r.nextId

/-- The registry with a file added or given a new text. -/
def add (r : Registry) (uri : FileUri) (text : String) : Registry :=
  let entry := FileEntry.ofText (r.idFor uri) uri text
  ⟨if r.contains uri then r.nextId else r.nextId + 1, r.files.insert uri entry⟩

/-- The registry without a file. -/
def remove (r : Registry) (uri : FileUri) : Registry :=
  { r with files := r.files.erase uri }

/-- The uris of the files, in order. -/
def uris (r : Registry) : List FileUri :=
  r.files.keys

/-- The files, in order. -/
def entries (r : Registry) : List FileEntry :=
  r.files.values

/-- The number of files. -/
def size (r : Registry) : Nat :=
  r.files.size

/-- Whether the registry has no files. -/
def isEmpty (r : Registry) : Bool :=
  r.files.isEmpty

/-- The documents of mapped statements, in order. -/
def mapperDocuments (r : Registry) : List Document :=
  (r.entries.filterMap (·.document)).filter Document.isMapper

/-! ### Files after a change -/

theorem get?_add (r : Registry) (uri x : FileUri) (text : String) :
    (r.add uri text).get? x =
      if x = uri then some (FileEntry.ofText (r.idFor uri) uri text) else r.get? x :=
  Table.get?_insert r.files uri x _

theorem get?_remove (r : Registry) (uri x : FileUri) :
    (r.remove uri).get? x = if x = uri then none else r.get? x :=
  Table.get?_erase r.files uri x

theorem uris_add (r : Registry) (uri : FileUri) (text : String) :
    (r.add uri text).uris = if uri ∈ r.uris then r.uris else r.uris ++ [uri] :=
  Table.keys_insert r.files uri _

theorem uris_remove (r : Registry) (uri : FileUri) :
    (r.remove uri).uris = r.uris.filter fun x => x ≠ uri :=
  Table.keys_erase r.files uri

end Registry

end SqlMapper

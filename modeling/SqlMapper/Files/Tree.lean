import SqlMapper.Files.Access
import SqlMapper.Path

/-!
# File trees

A tree of directories and files held in memory. Paths lead through it name by name: `.` stays, `..`
goes up, and nothing leads on from a file.

## Main definitions

* `FileTree.locate`: the place that a path leads to.
* `FileTree.write`, `FileTree.makeDirectory`, `FileTree.removeFile`: changing a tree.
* `FileTree.access`: the files of a tree.
-/

namespace SqlMapper

/-- What stands at a place of a tree. -/
inductive FileNode where
  | directory
  | file (bytes : ByteArray)

/-- Files and directories by their names from the root on. The root is always there. -/
structure FileTree where
  nodes : List (List String × FileNode)

namespace FileTree

/-- The tree with nothing in its root. -/
def empty : FileTree := ⟨[]⟩

/-- What stands at a place. -/
def at? (t : FileTree) (place : List String) : Option FileNode :=
  if place.isEmpty then some .directory
  else (t.nodes.find? fun n => n.1 == place).map (·.2)

/-- The tree with a node put at a place. -/
def put (t : FileTree) (place : List String) (node : FileNode) : FileTree :=
  ⟨(t.nodes.filter fun n => n.1 != place) ++ [(place, node)]⟩

/-- The tree with a directory at a place and at every place above it that has nothing yet. -/
def makeDirectory (t : FileTree) (place : List String) : FileTree :=
  ((List.range (place.length + 1)).map place.take).foldl
    (fun t above => if (t.at? above).isSome then t else t.put above .directory) t

/-- The tree with a file at a place, in directories made as needed. -/
def write (t : FileTree) (place : List String) (bytes : ByteArray) : FileTree :=
  (t.makeDirectory place.dropLast).put place (.file bytes)

/-- The tree without the file at a place; `none` if there is no file. -/
def removeFile (t : FileTree) (place : List String) : Option FileTree :=
  match t.at? place with
  | some (.file _) => some ⟨t.nodes.filter fun n => n.1 != place⟩
  | _ => none

/-- The place reached from a place by the names of a path. -/
def walkNames (t : FileTree) : List String → List String → Except ReadError (List String)
  | place, [] => .ok place
  | place, name :: names =>
    match t.at? place with
    | none => .error .notFound
    | some (.file _) => .error .notDirectory
    | some .directory =>
      if name = "" || name = "." then walkNames t place names
      else if name = ".." then walkNames t place.dropLast names
      else walkNames t (place ++ [name]) names

/-- What a path leads to, seen from the working directory, and its place. The empty path leads
nowhere. -/
def locate (t : FileTree) (cwd path : String) : Except ReadError (List String × FileNode) := do
  if path = "" then throw .notFound
  let place ← t.walkNames [] (Path.pieces (Path.join cwd path))
  match t.at? place with
  | some node => .ok (place, node)
  | none => .error .notFound

/-- The names of what stands directly in a directory, in the order of their bytes. -/
def namesIn (t : FileTree) (place : List String) : List String :=
  let found := t.nodes.filterMap fun n =>
    if n.1.length = place.length + 1 && place.isPrefixOf n.1 then n.1.getLast? else none
  found.mergeSort Text.le

/-- The text of the file that a path leads to. -/
def read (t : FileTree) (cwd path : String) : Except ReadError String := do
  match ← t.locate cwd path with
  | (_, .directory) => .error .isDirectory
  | (_, .file bytes) =>
    match String.fromUTF8? bytes with
    | some text => .ok text
    | none => .error .invalidText

/-- The files of a tree, seen from a working directory. -/
def access (t : FileTree) (cwd : String) : FileAccess Id where
  isFile := fun path =>
    match t.locate cwd path with
    | .ok (_, .file _) => true
    | _ => false
  isDirectory := fun path =>
    match t.locate cwd path with
    | .ok (_, .directory) => true
    | _ => false
  names := fun path =>
    match t.locate cwd path with
    | .ok (place, .directory) => t.namesIn place
    | _ => []
  read := t.read cwd

end FileTree

end SqlMapper

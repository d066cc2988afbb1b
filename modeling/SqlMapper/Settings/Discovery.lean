import SqlMapper.Files.Access
import SqlMapper.Path

/-!
# Finding settings

The settings of a directory are in the nearest file with one of the known names, in the directory
itself or above it. Of several in one directory the name earlier in the list counts.

## Main definitions

* `Settings.fileNames`: the known names.
* `Settings.ancestors`: a directory and those above it.
* `Settings.find?`: the file that holds the settings of a directory.
-/

namespace SqlMapper.Settings

/-- The names of files that hold settings, the preferred ones first. -/
def fileNames : List String :=
  [".mapperrc.yml", ".mapperrc.yaml", ".mapperrc.json", ".mapperrc", "mapper.config.yml",
    "mapper.config.yaml", "mapper.config.json"]

/-- A directory and at most `fuel` of those above it. -/
def ancestorsUpTo : Nat → String → List String
  | 0, directory => [directory]
  | fuel + 1, directory =>
    match Path.parent? directory with
    | some parent => directory :: ancestorsUpTo fuel parent
    | none => [directory]

/-- A directory and those above it, as its path is written. A path has no more names than
characters. -/
def ancestors (directory : String) : List String :=
  ancestorsUpTo (directory.length + 1) directory

/-- The places where the settings of a directory can be, the nearest first. -/
def candidates (directory : String) : List String :=
  (ancestors directory).flatMap fun above => fileNames.map (Path.join above)

/-- The first of the paths that leads to a file. -/
def firstFile? {m : Type → Type} [Monad m] (access : FileAccess m) :
    List String → m (Option String)
  | [] => pure none
  | path :: paths => do
    if ← access.isFile path then pure (some path) else firstFile? access paths

/-- The file that holds the settings of a directory. -/
def find? {m : Type → Type} [Monad m] (access : FileAccess m) (directory : String) :
    m (Option String) :=
  firstFile? access (candidates directory)

end SqlMapper.Settings

import SqlMapper.Text

/-!
# Access to files

What the library needs of the files around it, for any way of getting at them: a tree held in
memory answers at once, a file system answers as an action.

## Main definitions

* `ReadError`: why a file cannot be read.
* `FileAccess`: the questions that can be asked.
-/

namespace SqlMapper

/-- Why a file cannot be read as text. -/
inductive ReadError where
  | notFound
  /-- Something that is not a directory stands where one is needed. -/
  | notDirectory
  | isDirectory
  /-- The bytes of the file are not UTF-8. -/
  | invalidText
  | other (text : String)
  deriving Repr, DecidableEq

/-- What people are told about the reason. -/
def ReadError.message : ReadError → String
  | notFound => "No such file or directory (os error 2)"
  | notDirectory => "Not a directory (os error 20)"
  | isDirectory => "Is a directory (os error 21)"
  | invalidText => "stream did not contain valid UTF-8"
  | other text => text

/-- Access to files by path, with answers in `m`. -/
structure FileAccess (m : Type → Type) where
  /-- Whether a path leads to a file. -/
  isFile : String → m Bool
  /-- Whether a path leads to a directory. -/
  isDirectory : String → m Bool
  /-- The names in a directory, in the order of their bytes. -/
  names : String → m (List String)
  /-- The text of a file. -/
  read : String → m (Except ReadError String)

end SqlMapper

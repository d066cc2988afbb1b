import SqlMapper.Path

/-!
# Files and their languages

A file is identified by a uri. The language of its text follows from the extension of its path.

## Main definitions

* `FileUri.ofPath`: the uri of a path.
* `FileUri.path`: the path of a uri.
* `Language.ofPath`, `Language.ofUri`: the language of a file.
-/

namespace SqlMapper

/-- The text that identifies a file. -/
structure FileUri where
  text : String
  deriving Repr, DecidableEq, Inhabited

namespace FileUri

/-- The scheme in front of the path of a file. -/
def scheme : String := "file://"

/-- The uri of a path. Text that already has a scheme is its own uri. -/
def ofPath (path : String) : FileUri :=
  if Text.contains path "://" then ⟨path⟩
  else if Text.startsWith path "/" then ⟨scheme ++ path⟩
  else ⟨scheme ++ "/" ++ path⟩

/-- The path of a uri: the text behind the scheme, or all of it if it has another one. -/
def path (uri : FileUri) : String :=
  (Text.stripStart? uri.text scheme).getD uri.text

end FileUri

/-- The language of a text. -/
inductive Language where
  /-- A document of mapped statements. -/
  | xml
  /-- Plain statements. -/
  | sql
  | other
  deriving Repr, DecidableEq, Inhabited

namespace Language

/-- The language that the extension of a path stands for. -/
def ofPath (path : String) : Language :=
  match Path.extension? path with
  | some "xml" => xml
  | some "sql" => sql
  | _ => other

/-- The language of the file with this uri. -/
def ofUri (uri : FileUri) : Language :=
  ofPath uri.path

/-- Whether parameters can be completed in this language. -/
def completesParameters : Language → Bool
  | xml => true
  | _ => false

/-- The name of the language. -/
def name : Language → String
  | xml => "xml"
  | sql => "sql"
  | other => "other"

end Language

end SqlMapper

import SqlMapper.Text

/-!
# Paths

Paths as text, with a slash between names. Empty names, and names `.` other than one in front, are
not significant: two paths with the same root and the same significant names are the same path.

## Main definitions

* `Path.fileName?`, `Path.extension?`: the last name, and its part after the last dot.
* `Path.parent?`: the path without its last name.
* `Path.join`, `Path.absolute`: a path seen from a directory.
* `Path.same`: whether two texts name the same path.
-/

namespace SqlMapper.Path

/-- Whether a path starts at the root. -/
def isAbsolute (p : String) : Bool :=
  Text.startsWith p "/"

/-- The names of a path as written, the empty ones included. -/
def pieces (p : String) : List String :=
  Text.splitOn "/" p

/-- Whether a name that is not in front of a path is significant. -/
def significant (name : String) : Bool :=
  name ≠ "" && name ≠ "."

/-- The significant names of a path, its root left out. -/
def names (p : String) : List String :=
  match pieces p with
  | [] => []
  | first :: rest => (if first = "" then [] else [first]) ++ rest.filter significant

/-- Whether two texts name the same path. -/
def same (p q : String) : Bool :=
  isAbsolute p == isAbsolute q && names p == names q

/-- The last name of a path, if it is not `.` or `..`. -/
def fileName? (p : String) : Option String :=
  (names p).getLast?.filter fun name => name ≠ "." && name ≠ ".."

/-- The part of the last name behind its last dot; none if that dot is in front. -/
def extension? (p : String) : Option String := do
  let name ← fileName? p
  let stem ← Chars.beforeLast? (· == '.') name.toList
  if stem.isEmpty then none else some (String.ofList (Chars.afterLast (· == '.') name.toList))

/-- The names without those at the end that are not significant. The one in front is kept. -/
def dropInsignificantEnd : List String → List String
  | [] => []
  | first :: rest => first :: (rest.reverse.dropWhile fun name => !significant name).reverse

/-- The path without its last significant name; none for the root and the empty path. -/
def parent? (p : String) : Option String :=
  match (dropInsignificantEnd (pieces p)).reverse with
  | [] => none
  | [only] => if only = "" then none else some ""
  | _ :: front =>
    match dropInsignificantEnd front.reverse with
    | [""] => some "/"
    | kept => some (Text.join "/" kept)

/-- The path `p` seen from the directory `base`. -/
def join (base p : String) : String :=
  if isAbsolute p then p
  else if base = "" || Text.endsWith base "/" then base ++ p
  else base ++ "/" ++ p

/-- The path `p` seen from the working directory `cwd`, with significant names only. Exactly two
slashes in front, and a slash at the end, are kept. -/
def absolute (cwd p : String) : String :=
  let start :=
    if !isAbsolute p then cwd
    else if Text.startsWith p "//" && !Text.startsWith p "///" then "//"
    else "/"
  let relevant := match names p with
    | "." :: rest => rest
    | all => all
  let whole := relevant.foldl join start
  if Text.endsWith p "/" then join whole "" else whole

end SqlMapper.Path

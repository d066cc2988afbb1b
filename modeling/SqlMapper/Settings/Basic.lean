import SqlMapper.Model.Declaration

/-!
# Settings

What a project can set: which files hold its documents and type models, and by which marks the
parameters in statements are recognised.

## Main definitions

* `Markers`: the marks of parameters.
* `Patterns`: one pattern of file names, or several.
* `Settings`: the settings of a project.
* `Settings.problem?`: the first rule that settings break.
-/

namespace SqlMapper

/-- The marks by which the parameters in statements are recognised. -/
structure Markers where
  /-- What an editor puts at the caret. -/
  placeholder : String := "IntellijIdeaRulezzz "
  /-- What stands in front of a bound parameter. -/
  opener : String := "#\x7b"
  /-- What stands in front of a parameter that is put in as text. -/
  textOpener : String := "$\x7b"
  /-- What stands behind a parameter. -/
  closer : String := "\x7d"
  /-- What separates the names of a path. -/
  separator : String := "."
  /-- The qualified name of the annotation that names parameters. -/
  annotationName : String := "org.apache.ibatis.annotations.Param"
  /-- The largest number of names in a path that is followed. -/
  maxDepth : Nat := 32
  deriving Repr, DecidableEq

namespace Markers

/-- The marks of a project that sets none. -/
def standard : Markers := {}

/-- The placeholder without the blanks around it. -/
def trimmedPlaceholder (m : Markers) : String :=
  Text.trim m.placeholder

/-- The unqualified name of the annotation that names parameters. -/
def annotationSimpleName (m : Markers) : String :=
  simpleName m.annotationName

end Markers

/-- Patterns of file names. One pattern and a list of one pattern are written differently. -/
inductive Patterns where
  | one (pattern : String)
  | many (patterns : List String)
  deriving Repr, DecidableEq

namespace Patterns

/-- The patterns, in order. -/
def toList : Patterns → List String
  | one pattern => [pattern]
  | many patterns => patterns

/-- Whether there is a pattern, and none of them is blank. -/
def isUsable (p : Patterns) : Bool :=
  !p.toList.isEmpty && p.toList.all fun pattern => !Text.isBlank pattern

end Patterns

/-- The settings of a project. -/
structure Settings where
  /-- The files that hold documents. -/
  mappers : Patterns := .one "**/*.xml"
  /-- The files that hold the type model, if any. -/
  types : Option Patterns := none
  markers : Markers := {}
  deriving Repr, DecidableEq

/-- The rules that settings can break. -/
inductive SettingsProblem where
  /-- The text is not YAML, or not settings written in it. -/
  | yaml
  /-- The text is not JSON, or not settings written in it. -/
  | json
  | mapperPatterns
  | typePatterns
  | blankPlaceholder
  | emptySeparator
  | zeroDepth
  deriving Repr, DecidableEq

/-- What people are told about a problem. -/
def SettingsProblem.message : SettingsProblem → String
  | yaml => "YAML parse error"
  | json => "JSON parse error"
  | mapperPatterns => "mapper patterns must not be empty"
  | typePatterns => "type model patterns must not be empty"
  | blankPlaceholder => "completion.placeholder must not be blank"
  | emptySeparator => "completion.separator must not be empty"
  | zeroDepth => "completion.maxDepth must be at least 1"

namespace Settings

/-- The settings of a project that sets nothing. -/
def standard : Settings := {}

/-- The first rule that the settings break. -/
def problem? (s : Settings) : Option SettingsProblem :=
  if !s.mappers.isUsable then some .mapperPatterns
  else if s.types.any fun t => !t.isUsable then some .typePatterns
  else if s.markers.trimmedPlaceholder = "" then some .blankPlaceholder
  else if s.markers.separator = "" then some .emptySeparator
  else if s.markers.maxDepth = 0 then some .zeroDepth
  else none

end Settings

end SqlMapper

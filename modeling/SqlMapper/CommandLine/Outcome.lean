import SqlMapper.Project.Loading
import SqlMapper.Settings.Reader

/-!
# Outcomes

What a command leaves behind: an exit code and what it writes. Scripts can tell findings from
failures, and kinds of failures from each other, by the exit code alone.

## Main definitions

* `ExitCode`: the exit codes.
* `Failure`: why a command cannot be carried out.
* `Outcome`: exit code and texts.
-/

namespace SqlMapper.CommandLine

/-- The exit codes. -/
inductive ExitCode where
  | success
  /-- Something was found that should not be there, or nothing was found. -/
  | findings
  | settingsError
  | modelError
  | readError
  deriving Repr, DecidableEq

/-- The number of an exit code. -/
def ExitCode.number : ExitCode → Nat
  | success => 0
  | findings => 1
  | settingsError => 2
  | modelError => 3
  | readError => 4

/-- Why a command cannot be carried out. -/
inductive Failure where
  | settings (path : String) (cause : SettingsError)
  | project (cause : LoadError)
  | unreadable (path : String) (cause : ReadError)
  deriving Repr, DecidableEq

namespace Failure

/-- What people are told about a failure and about what caused it. -/
def causes : Failure → List String
  | settings path cause => ("Failed to load config " ++ path) :: cause.causes
  | project cause => "Failed to load project" :: cause.causes
  | unreadable path cause => ["Failed to read " ++ path, cause.message]

/-- The exit code of a failure. -/
def exitCode : Failure → ExitCode
  | settings _ (.unreadable _) => .readError
  | settings _ _ => .settingsError
  | project (.model (.unreadable _ _)) => .readError
  | project (.model _) => .modelError
  | project _ => .settingsError
  | unreadable _ _ => .readError

end Failure

/-- What a command leaves behind. -/
structure Outcome where
  code : ExitCode
  out : String := ""
  err : String := ""
  deriving Repr, DecidableEq

/-- The text of some lines. -/
def unlines (lines : List String) : String :=
  String.join (lines.map (· ++ "\n"))

end SqlMapper.CommandLine

/-!
# Requests

What the command line can ask for.

## Main definitions

* `Command`: the commands.
* `Request`: a command with what holds for every command.
-/

namespace SqlMapper.CommandLine

/-- How results are written. -/
inductive OutputFormat where
  /-- For people, with colors. -/
  | human
  /-- For other programs. -/
  | json
  deriving Repr, DecidableEq

/-- The commands. Lines and characters count from one. -/
inductive Command where
  /-- Lists the names offered at a position of a file. -/
  | complete (file : String) (line character : Nat) (format : OutputFormat)
  /-- Reports references to result maps that are defined nowhere. -/
  | check (format : OutputFormat)
  /-- Puts logged values into a statement. -/
  | substitute (sql parameters : String)
  /-- Finds where a result map is defined, seen from a file. -/
  | resolve (file id : String)
  deriving Repr, DecidableEq

/-- Whether colors are asked for. -/
structure ColorFlags where
  on : Bool := false
  off : Bool := false
  deriving Repr, DecidableEq

/-- What is asked for. -/
inductive Request where
  /-- The version of the program. -/
  | version
  /-- A command, with the file that holds the settings if it is given. -/
  | command (settingsFile : Option String) (colors : ColorFlags) (what : Command)
  deriving Repr, DecidableEq

end SqlMapper.CommandLine

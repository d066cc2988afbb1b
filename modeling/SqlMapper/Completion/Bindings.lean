import SqlMapper.Table
import SqlMapper.Model.Parameters

/-!
# Bindings

The names that can stand at one place of a path, with their types. At the start of a path these
are the parameters of the statement, behind a name the members of its type.

## Main definitions

* `Bindings.ofParameters`: the names at the start of a path.
* `Bindings.ofMembers`: the names behind a name.
-/

namespace SqlMapper

/-- Types by name, in the order in which the names are offered. -/
abbrev Bindings := Table String String

/-- The name under which a parameter can be used: the one that its annotation gives or, if that
is empty or missing, the declared one. Without the annotation it cannot be used. -/
def Parameter.effectiveName? (p : Parameter) : Option String :=
  p.rename.map fun rename =>
    match rename.value with
    | some value => if value = "" then p.name else value
    | none => p.name

namespace Bindings

/-- The bindings with one more parameter, if it can be used. -/
def addParameter (table : Bindings) (p : Parameter) : Bindings :=
  match p.effectiveName? with
  | some name => table.insert name p.typeName
  | none => table

/-- The names of parameters. A name used twice keeps its place and has the later type. -/
def ofParameters (parameters : List Parameter) : Bindings :=
  parameters.foldl addParameter Table.empty

/-- The names of the members of a type. Fields come first and hide properties of their name. -/
def ofMembers (types : Introspector) (typeName : String) : Bindings :=
  let fields := (types.fields typeName).foldl
    (fun table member => table.insert member.name member.typeName) (Table.empty : Bindings)
  (types.accessors typeName).foldl
    (fun table member => table.insertNew member.name member.typeName) fields

end Bindings

end SqlMapper

import SqlMapper.Completion.Bindings

/-!
# Following a path

From the bindings at the start of a path to the candidates for its last name. Every name but the
last must be bound to a type with members; the last one need only begin a name. A path may lead
through the same type again, since each step uses up a name.

## Main definitions

* `Candidate`: a name that can stand at the end of a path.
* `walk`: the candidates for the end of a path.
-/

namespace SqlMapper

/-- A name that can stand at the end of a path. -/
structure Candidate where
  label : String
  typeName : String
  /-- How many names stand before it. -/
  depth : Nat
  deriving Repr, DecidableEq

/-- The candidates for the end of a path of which `depth` names have been followed. -/
def walkFrom (types : Introspector) (maxDepth : Nat) :
    Nat → List String → Bindings → List Candidate
  | _, [], _ => []
  | depth, [target], table =>
    if depth ≥ maxDepth then []
    else table.entries.filterMap fun e =>
      if Text.startsWith e.1 target then some ⟨e.1, e.2, depth⟩ else none
  | depth, name :: rest, table =>
    if depth ≥ maxDepth then []
    else table.entries.flatMap fun e =>
      if e.1 = name && types.isStructured e.2 then
        walkFrom types maxDepth (depth + 1) rest (Bindings.ofMembers types e.2)
      else []

/-- The candidates for the end of a path of at most `maxDepth` names, in the order of their
bindings. -/
def walk (types : Introspector) (maxDepth : Nat) (segments : List String) (table : Bindings) :
    List Candidate :=
  walkFrom types maxDepth 0 segments table

end SqlMapper

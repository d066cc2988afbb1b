import SqlMapper.Files.Access
import SqlMapper.Glob.Pattern
import SqlMapper.Path

/-!
# Expanding patterns of paths

A pattern of paths has one step for each name. A step whose characters stand for themselves leads
on at once; any other looks at the names in a directory, in the order of their bytes. What lies in a
directory is listed where the directory stands.

## Main definitions

* `Glob.Plan`: the steps of a pattern.
* `Glob.Plan.ofPattern?`: the steps of a text that is a pattern.
* `Glob.expand`: the files that some patterns stand for.
-/

namespace SqlMapper.Glob

/-- A step of a pattern. -/
inductive Step where
  /-- Any number of directories. -/
  | directories
  /-- One name. -/
  | name (tokens : List Token)
  deriving Repr, DecidableEq

/-- The steps of a pattern, and where they start. -/
structure Plan where
  start : String
  steps : List Step
  /-- Whether only directories are asked for. -/
  onlyDirectories : Bool
  deriving Repr, DecidableEq

/-- A text that is no pattern. -/
structure InvalidPattern where
  pattern : String
  deriving Repr, DecidableEq

/-- What people are told about a text that is no pattern. -/
def InvalidPattern.message (e : InvalidPattern) : String :=
  "Invalid glob pattern '" ++ e.pattern ++ "'"

namespace Step

/-- The step for one piece of a pattern. -/
def ofPiece? (piece : String) : Option Step :=
  (tokens? piece.toList).map fun tokens =>
    if tokens = [.anyDirectories] then .directories else .name tokens

/-- The name of a step whose characters stand for themselves. -/
def literal? : Step → Option String
  | directories => none
  | name tokens => (Glob.literal? tokens).map String.ofList

/-- Whether a step fits a name. -/
def fits : Step → String → Bool
  | directories, _ => false
  | name tokens, text => Glob.fits tokens text.toList

/-- Whether a step may lead to the directory itself and the one above it. -/
def startsWithDot : Step → Bool
  | name (.character '.' :: _) => true
  | _ => false

/-- The steps with each run of `directories` made one. -/
def collapse : List Step → List Step
  | .directories :: .directories :: steps => collapse (.directories :: steps)
  | step :: steps => step :: collapse steps
  | [] => []

end Step

namespace Plan

/-- The pieces of a pattern behind its root. A slash at the end closes the last piece. -/
def pieces (pattern : String) : List String :=
  match pattern.toList with
  | [] => []
  | _ =>
    let all := Path.pieces pattern
    if all.getLast? = some "" then all.dropLast else all

/-- The steps of a text that is a pattern. Both the whole and each piece must be well-formed; a
pattern without pieces has one empty step. -/
def ofPattern? (pattern : String) : Option Plan := do
  let _ ← tokens? pattern.toList
  let rest := (Text.stripStart? pattern "/").getD pattern
  let steps ← (pieces rest).mapM Step.ofPiece?
  let steps := if rest = "" then [.name []] else Step.collapse steps
  let start := if Path.isAbsolute pattern then "/" else "."
  some ⟨start, steps, Text.endsWith pattern "/"⟩

end Plan

section Walking

variable {m : Type → Type} [Monad m]

/-- Whether a path leads anywhere. -/
def leadsAnywhere (access : FileAccess m) (path : String) : m Bool := do
  if ← access.isFile path then pure true else access.isDirectory path

/-- The path of a name in a directory. Names in the starting directory stand alone. -/
def child (path name : String) : String :=
  if path = "." then name else Path.join path name

/-- A path at the end of a plan. -/
def finish (access : FileAccess m) (onlyDirectories : Bool) (path : String) : m (List String) := do
  if !onlyDirectories then pure [path]
  else if ← access.isDirectory path then pure [path]
  else pure []

mutual

/-- The paths to which the steps lead from a path, at most `fuel` steps deep. -/
def follow (access : FileAccess m) (only : Bool) : Nat → List Step → String → m (List String)
  | 0, _, _ => pure []
  | _, [], path => finish access only path
  | fuel + 1, step :: steps, path =>
    match step.literal? with
    | some name => do
      let next := child path name
      let present ← if name = "." || name = ".." then access.isDirectory path
        else leadsAnywhere access next
      if present then follow access only fuel steps next else pure []
    | none => do
      if ← access.isDirectory path then
        let dots := ["..", "."].filter fun dot => step.startsWithDot && step.fits dot
        let above ← dots.mapM fun dot => follow access only fuel steps (Path.join path dot)
        let below ← (← access.names path).mapM fun name =>
          visit access only fuel (step :: steps) (child path name) name
        pure (above.flatten ++ below.flatten)
      else pure []

/-- The paths to which the steps lead when the first is taken to a name in a directory. -/
def visit (access : FileAccess m) (only : Bool) :
    Nat → List Step → String → String → m (List String)
  | 0, _, _, _ => pure []
  | _, [], _, _ => pure []
  | fuel + 1, .directories :: steps, path, name => do
    let isDirectory ← access.isDirectory path
    let here ←
      if steps.isEmpty then pure (if isDirectory then [path] else [])
      else visit access only fuel steps path name
    let inside ←
      if isDirectory then follow access only fuel (.directories :: steps) path else pure []
    pure (here ++ inside)
  | fuel + 1, step :: steps, path, name =>
    if step.fits name then follow access only fuel steps path else pure []

end

/-- A bound on the depth of a path that can be opened. -/
def maxPathDepth : Nat := 4096

/-- The paths of a plan, in the order in which they are found. -/
def Plan.paths (access : FileAccess m) (plan : Plan) : m (List String) :=
  follow access plan.onlyDirectories (maxPathDepth + 2 * plan.steps.length) plan.steps plan.start

/-- Those of the paths that lead to files. -/
def filesAmong (access : FileAccess m) : List String → m (List String)
  | [] => pure []
  | path :: paths => do
    let isFile ← access.isFile path
    let rest ← filesAmong access paths
    pure (if isFile then path :: rest else rest)

/-- The paths without those that name the same path as an earlier one. -/
def distinctPaths : List String → List String
  | [] => []
  | path :: paths => path :: (distinctPaths paths).filter fun other => !Path.same path other

/-- The plans of patterns seen from a directory, or the first text that is no pattern. -/
def plans (base : String) : List String → Except InvalidPattern (List Plan)
  | [] => .ok []
  | pattern :: patterns =>
    match Plan.ofPattern? (Path.join base pattern) with
    | none => .error ⟨pattern⟩
    | some plan => (plans base patterns).map (plan :: ·)

/-- The files that patterns stand for, seen from a directory. They come in the order of the
patterns, each once. -/
def expand (access : FileAccess m) (base : String) (patterns : List String) :
    m (Except InvalidPattern (List String)) :=
  match plans base patterns with
  | .error e => pure (.error e)
  | .ok plans => do
    let paths ← plans.mapM (Plan.paths access)
    let files ← filesAmong access paths.flatten
    pure (.ok (distinctPaths files))

end Walking

end SqlMapper.Glob

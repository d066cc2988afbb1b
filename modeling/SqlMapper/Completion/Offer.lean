import SqlMapper.Completion.Path
import SqlMapper.Completion.Walk

/-!
# Completion lists

The candidates for a path, as they are offered: with the kind of each, its type, and the text by
which an editor is to narrow them down.

## Main definitions

* `CompletionList`: the names offered.
* `complete`: the names offered for a text in front of a caret.
-/

namespace SqlMapper

/-- What an offered name stands for. -/
inductive CompletionKind where
  /-- A parameter of the statement. -/
  | parameter
  /-- A member of the type of a name before it. -/
  | property
  deriving Repr, DecidableEq

/-- The word for a kind. -/
def CompletionKind.name : CompletionKind → String
  | parameter => "parameter"
  | property => "property"

/-- A name that is offered, with its type. -/
structure CompletionItem where
  label : String
  kind : CompletionKind
  detail : String
  deriving Repr, DecidableEq

/-- The names that are offered. -/
structure CompletionList where
  /-- The text that shown names are to begin with; without it an editor decides for itself. -/
  filterText : Option String := none
  items : List CompletionItem := []
  deriving Repr, DecidableEq

namespace CompletionList

/-- The list that offers nothing. -/
def empty : CompletionList := {}

/-- Whether nothing is offered. -/
def isEmpty (l : CompletionList) : Bool :=
  l.items.isEmpty

/-- The names, in order. -/
def labels (l : CompletionList) : List String :=
  l.items.map (·.label)

/-- The items that begin with the text given. -/
def visible (l : CompletionList) : List CompletionItem :=
  l.items.filter fun i => Text.startsWith i.label (l.filterText.getD "")

end CompletionList

/-- A candidate as an offered name. -/
def Candidate.toItem (c : Candidate) : CompletionItem :=
  ⟨c.label, if c.depth = 0 then .parameter else .property, c.typeName⟩

/-- The text by which names for a path are narrowed down. An empty name leaves all of them. -/
def TypedPath.filterText (p : TypedPath) : Option String :=
  if p.target = "" then some "" else if p.expectsPrefix then some p.target else none

/-- The candidates for a path, as a list. -/
def offer (path : TypedPath) (candidates : List Candidate) : CompletionList :=
  ⟨path.filterText, candidates.map Candidate.toItem⟩

/-- The names offered for a text in front of a caret, in a statement with these parameters. -/
def complete (types : Introspector) (m : Markers) (parameters : List Parameter) (raw : String) :
    CompletionList :=
  let table := Bindings.ofParameters parameters
  if table.isEmpty then CompletionList.empty
  else
    match tokenize? m raw with
    | none => CompletionList.empty
    | some path => offer path (walk types m.maxDepth path.segments table)

end SqlMapper

import SqlMapper.Yaml.Token
import SqlMapper.Yaml.Node

/-!
# Reading YAML

From tokens to nodes, by the grammar of documents. Anchors are known from their first node on to
the end of the document.

## Main definitions

* `Yaml.parse?`: the node of a text with at most one document.
-/

namespace SqlMapper.Yaml

/-- The anchors met so far, latest first, and the tag handles in force. -/
structure Context where
  anchors : List (String × Node)
  handles : List (String × String)
  deriving Repr

/-- The handles in force when none is declared. -/
def defaultHandles : List (String × String) :=
  [("!", "!"), ("!!", "tag:yaml.org,2002:")]

/-- The full tag of a handle and the rest behind it. -/
def Context.tag? (ctx : Context) (handle rest : String) : Option String :=
  if handle = "" then some rest else (ctx.handles.lookup handle).map (· ++ rest)

/-- The context in which an anchor stands for a node. -/
def Context.bind (ctx : Context) (anchor : Option String) (node : Node) : Context :=
  match anchor with
  | some name => { ctx with anchors := (name, node) :: ctx.anchors }
  | none => ctx

/-- The anchor and the tag in front of a node, each at most once and in either order, and the
tokens behind them. -/
def properties? (ctx : Context) :
    List Token → Option (Option String × Option String × List Token)
  | .anchor name :: .tag handle rest :: ts =>
    (ctx.tag? handle rest).map fun t => (some name, some t, ts)
  | .anchor name :: ts => some (some name, none, ts)
  | .tag handle rest :: .anchor name :: ts =>
    (ctx.tag? handle rest).map fun t => (some name, some t, ts)
  | .tag handle rest :: ts => (ctx.tag? handle rest).map fun t => (none, some t, ts)
  | ts => some (none, none, ts)

/-- Whether a token ends an entry of a block collection in which nothing is written. -/
def endsBlockEntry : List Token → Bool
  | .key :: _ | .value :: _ | .blockEnd :: _ => true
  | _ => false

/-- The tokens behind the comma that is due before every entry but the first, unless the closing
token comes. -/
def separated? (first : Bool) (closing : Token) (ts : List Token) : Option (List Token) :=
  if first || ts.head? == some closing then some ts
  else
    match ts with
    | .flowEntry :: ts => some ts
    | _ => none

mutual

/-- The node at the front of the tokens. In front of a block collection stand the collections
allowed there: all of them in `block`, and entries without indentation in `indentless`. -/
def node? (block indentless : Bool) : Nat → Context → List Token →
    Option (Node × Context × List Token)
  | 0, _, _ => none
  | fuel + 1, ctx, ts =>
    match ts with
    | .alias name :: ts => (ctx.anchors.lookup name).map fun n => (n, ctx, ts)
    | _ => do
      let (anchor, tag, ts) ← properties? ctx ts
      let inner := ctx.bind anchor .recursion
      let (node, ctx, ts) ←
        match ts with
        | .scalar text plain :: ts => some (Node.scalar text plain tag, ctx, ts)
        | .flowSequence :: ts => do
          let (items, ctx, ts) ← flowItems? fuel inner true ts
          some (.sequence items tag, ctx, ts)
        | .flowMapping :: ts => do
          let (entries, ctx, ts) ← flowEntries? fuel inner true ts
          some (.mapping entries tag, ctx, ts)
        | .blockEntry :: _ =>
          if indentless then do
            let (items, ctx, ts) ← indentlessItems? fuel inner ts
            some (.sequence items tag, ctx, ts)
          else if anchor.isSome || tag.isSome then some (Node.scalar "" true tag, ctx, ts)
          else none
        | .blockSequence :: rest =>
          if block then do
            let (items, ctx, ts) ← blockItems? fuel inner rest
            some (.sequence items tag, ctx, ts)
          else if anchor.isSome || tag.isSome then some (Node.scalar "" true tag, ctx, ts)
          else none
        | .blockMapping :: rest =>
          if block then do
            let (entries, ctx, ts) ← blockEntries? fuel inner rest
            some (.mapping entries tag, ctx, ts)
          else if anchor.isSome || tag.isSome then some (Node.scalar "" true tag, ctx, ts)
          else none
        | _ =>
          if anchor.isSome || tag.isSome then some (Node.scalar "" true tag, ctx, ts) else none
      some (node, ctx.bind anchor node, ts)

/-- The items of a block sequence, up to its end. -/
def blockItems? : Nat → Context → List Token → Option (List Node × Context × List Token)
  | 0, _, _ => none
  | fuel + 1, ctx, ts =>
    match ts with
    | .blockEnd :: ts => some ([], ctx, ts)
    | .blockEntry :: ts => do
      let (item, ctx, ts) ←
        match ts with
        | .blockEntry :: _ | .blockEnd :: _ => some (Node.empty, ctx, ts)
        | _ => node? true false fuel ctx ts
      let (items, ctx, ts) ← blockItems? fuel ctx ts
      some (item :: items, ctx, ts)
    | _ => none

/-- The items of a sequence whose dashes are not indented, up to the first other token. -/
def indentlessItems? : Nat → Context → List Token → Option (List Node × Context × List Token)
  | 0, _, _ => none
  | fuel + 1, ctx, ts =>
    match ts with
    | .blockEntry :: ts => do
      let (item, ctx, ts) ←
        match ts with
        | .blockEntry :: _ => some (Node.empty, ctx, ts)
        | _ =>
          if endsBlockEntry ts then some (Node.empty, ctx, ts) else node? true false fuel ctx ts
      let (items, ctx, ts) ← indentlessItems? fuel ctx ts
      some (item :: items, ctx, ts)
    | _ => some ([], ctx, ts)

/-- The entries of a block mapping, up to its end. -/
def blockEntries? : Nat → Context → List Token →
    Option (List (Node × Node) × Context × List Token)
  | 0, _, _ => none
  | fuel + 1, ctx, ts =>
    match ts with
    | .blockEnd :: ts => some ([], ctx, ts)
    | .key :: ts => do
      let (key, ctx, ts) ←
        if endsBlockEntry ts then some (Node.empty, ctx, ts) else node? true true fuel ctx ts
      let (value, ctx, ts) ←
        match ts with
        | .value :: ts =>
          if endsBlockEntry ts then some (Node.empty, ctx, ts) else node? true true fuel ctx ts
        | _ => some (Node.empty, ctx, ts)
      let (entries, ctx, ts) ← blockEntries? fuel ctx ts
      some ((key, value) :: entries, ctx, ts)
    | _ => none

/-- The items of a sequence in brackets, up to its end. A key in it makes up a mapping of its
own. -/
def flowItems? : Nat → Context → Bool → List Token → Option (List Node × Context × List Token)
  | 0, _, _, _ => none
  | fuel + 1, ctx, first, ts => do
    let ts ← separated? first .flowSequenceEnd ts
    match ts with
    | .flowSequenceEnd :: ts => some ([], ctx, ts)
    | .key :: ts =>
      let (key, ctx, ts) ←
        match ts with
        | .value :: _ | .flowEntry :: _ | .flowSequenceEnd :: _ => some (Node.empty, ctx, ts)
        | _ => node? false false fuel ctx ts
      let (value, ctx, ts) ←
        match ts with
        | .value :: ts =>
          match ts with
          | .flowEntry :: _ | .flowSequenceEnd :: _ => some (Node.empty, ctx, ts)
          | _ => node? false false fuel ctx ts
        | _ => some (Node.empty, ctx, ts)
      let (items, ctx, ts) ← flowItems? fuel ctx false ts
      some (.mapping [(key, value)] none :: items, ctx, ts)
    | _ =>
      let (item, ctx, ts) ← node? false false fuel ctx ts
      let (items, ctx, ts) ← flowItems? fuel ctx false ts
      some (item :: items, ctx, ts)

/-- The entries of a mapping in braces, up to its end. -/
def flowEntries? : Nat → Context → Bool → List Token →
    Option (List (Node × Node) × Context × List Token)
  | 0, _, _, _ => none
  | fuel + 1, ctx, first, ts => do
    let ts ← separated? first .flowMappingEnd ts
    match ts with
    | .flowMappingEnd :: ts => some ([], ctx, ts)
    | .key :: ts =>
      let (key, ctx, ts) ←
        match ts with
        | .value :: _ | .flowEntry :: _ | .flowMappingEnd :: _ => some (Node.empty, ctx, ts)
        | _ => node? false false fuel ctx ts
      let (value, ctx, ts) ←
        match ts with
        | .value :: ts =>
          match ts with
          | .flowEntry :: _ | .flowMappingEnd :: _ => some (Node.empty, ctx, ts)
          | _ => node? false false fuel ctx ts
        | _ => some (Node.empty, ctx, ts)
      let (entries, ctx, ts) ← flowEntries? fuel ctx false ts
      some ((key, value) :: entries, ctx, ts)
    | _ =>
      let (key, ctx, ts) ← node? false false fuel ctx ts
      let (entries, ctx, ts) ← flowEntries? fuel ctx false ts
      some ((key, Node.empty) :: entries, ctx, ts)

end

/-- The directives in front of a document: the version, at most once and of a known number, and
handles, each at most once. -/
def directives? : List Token → Bool → List (String × String) →
    Option (List (String × String) × List Token)
  | .version major minor :: ts, versioned, handles =>
    if versioned || major != 1 || (minor != 1 && minor != 2) then none
    else directives? ts true handles
  | .tagHandle handle uri :: ts, versioned, handles =>
    if (handles.lookup handle).isSome then none
    else directives? ts versioned (handles ++ [(handle, uri)])
  | ts, _, handles => some (handles, ts)

/-- Whether the tokens begin where a document can have no content. -/
def endsDocument : List Token → Bool
  | [] | .version _ _ :: _ | .tagHandle _ _ :: _ | .documentStart :: _ | .documentEnd :: _ => true
  | _ => false

/-- The node of a document that begins with a marker, after its directives. -/
def explicitDocument? (fuel : Nat) (ts : List Token) : Option (Node × List Token) := do
  let (handles, ts) ← directives? ts false []
  let .documentStart :: ts := ts | none
  if endsDocument ts then some (Node.empty, ts)
  else
    let (node, _, ts) ← node? true false fuel ⟨[], handles ++ defaultHandles⟩ ts
    some (node, ts)

/-- The node of the first document; none if there is no document. Without a marker a document
begins with its content. -/
def firstDocument? (fuel : Nat) : List Token → Option (Option Node × List Token)
  | [] => some (none, [])
  | .documentEnd :: _ => none
  | ts =>
    if endsDocument ts then (explicitDocument? fuel ts).map fun r => (some r.1, r.2)
    else do
      let (node, _, ts) ← node? true false fuel ⟨[], defaultHandles⟩ ts
      some (some node, ts)

/-- The node of a text with one document; `some none` for a text without any, and `none` for one
that is not well-formed or has several documents. -/
def parse? (text : String) : Option (Option Node) := do
  let ts ← tokens? text.toList
  let (node, rest) ← firstDocument? (2 * ts.length + 2) ts
  let isEnd : Token → Bool
    | .documentEnd => true
    | _ => false
  if (rest.dropWhile isEnd).isEmpty then some node else none

end SqlMapper.Yaml

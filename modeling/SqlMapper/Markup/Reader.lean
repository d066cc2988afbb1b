import SqlMapper.Markup.Event
import SqlMapper.Markup.Entity

/-!
# Reading a document

From the text of a document to its events. The reader follows the grammar of documents: a
declaration, comments and instructions, a document type with its entities, one element, and
comments and instructions again. It does not pair tags; that is done on the events.

## Main definitions

* `readEvents`: the events of a document.
-/

namespace SqlMapper.Markup

/-- The cursor behind a comment. -/
def readComment (c : Cursor) : Except Fault Cursor := do
  let (text, after) ← (c.skip 4).takeUntil "-->"
  if Chars.occursIn "--".toList text || text.getLast? == some '-' then .error .invalidComment
  else .ok after

/-- The cursor behind a processing instruction. -/
def readInstruction (c : Cursor) : Except Fault Cursor := do
  if c.looksAt "<?xml " then .error .misplacedDeclaration
  let (_, afterName) ← (c.skip 2).name
  let (_, after) ← afterName.skipSpaces.takeUntil "?>"
  .ok after

/-- The cursor behind any spaces, comments and instructions. -/
def readMisc : Nat → Cursor → Except Fault Cursor
  | 0, c => .ok c
  | fuel + 1, c => do
    let c := c.skipSpaces
    if c.looksAt "<!--" then readMisc fuel (← readComment c)
    else if c.looksAt "<?" then readMisc fuel (← readInstruction c)
    else .ok c

/-- A written attribute. -/
structure RawAttribute where
  name : QualifiedName
  value : List Char
  span : Span
  deriving Repr, DecidableEq

/-- The written attribute at the cursor. The place of its value is counted from the start of the
attribute, with at most 65535 bytes for the name and at most 255 for the equals sign and the
spaces around it. -/
def readAttribute (c : Cursor) : Except Fault (RawAttribute × Cursor) := do
  let (name, afterName) ← c.qualifiedName
  let afterEquals := (← afterName.skipSpaces.expect "=").skipSpaces
  let (mark, valueStart) ← afterEquals.quote
  let (value, valueStop) ← valueStart.takeAllowedWhile fun x => x != mark && x != '<'
  let after ← valueStop.expect (String.singleton mark)
  let nameLength := min (afterName.offset - c.offset) 65535
  let equalsLength := min (afterEquals.offset - afterName.offset) 255
  .ok (⟨name, value, ⟨c.offset + nameLength + equalsLength + 1, after.offset - 1⟩⟩, after)

/-- The cursor behind a declaration, which begins with a version. -/
def readDeclaration (c : Cursor) : Except Fault Cursor := do
  let separated (c : Cursor) : Except Fault Cursor :=
    match c.rest with
    | x :: _ =>
      if isSpace x then .ok c.skipSpaces
      else if c.looksAt "?>" then .ok c
      else .error .unexpectedText
    | [] => .ok c
  let c ← separated (c.skip 5)
  if !c.looksAt "version" then .error .unexpectedText
  let (_, c) ← readAttribute c
  let c ← separated c
  let c ← if c.looksAt "encoding" then do separated (← readAttribute c).2 else .ok c
  let c ← if c.looksAt "standalone" then do .ok (← readAttribute c).2 else .ok c
  c.skipSpaces.expect "?>"

/-- The cursor behind an external identifier; the cursor itself if there is none. -/
def readExternalId (c : Cursor) : Except Fault Cursor := do
  let literal (c : Cursor) : Except Fault Cursor := do
    let (mark, c) ← (← c.demandSpaces).quote
    .ok (← c.quoted mark).2
  if c.looksAt "SYSTEM" then literal (c.skip 6)
  else if c.looksAt "PUBLIC" then literal (← literal (c.skip 6))
  else .ok c

/-- The declaration of an entity: its name and text, unless the text is elsewhere. -/
def readEntity (c : Cursor) : Except Fault (Option Entity × Cursor) := do
  let c ← (c.skip 8).demandSpaces
  let (general, c) ← if c.looksAt "%" then do .ok (false, ← (c.skip 1).demandSpaces)
    else .ok (true, c)
  let (name, c) ← c.name
  let c ← c.demandSpaces
  let (declared, c) ←
    match c.rest with
    | '"' :: _ | '\'' :: _ => do
      let (mark, start) ← c.quote
      let (text, after) ← start.quoted mark
      .ok (some ⟨name, ⟨start.offset, text⟩⟩, after)
    | 'S' :: _ | 'P' :: _ => do
      let after ← readExternalId c
      if after.offset = c.offset then .error .unexpectedText
      let unparsed := after.skipSpaces
      if general && unparsed.looksAt "NDATA" then
        .ok (none, (← (← (unparsed.skip 5).demandSpaces).name).2)
      else .ok (none, after)
    | _ => .error .unexpectedText
  .ok (declared, ← c.skipSpaces.expect ">")

/-- The entities declared between the brackets of a document type, in order, and the cursor
behind it. -/
def readSubset : Nat → Cursor → List Entity → Except Fault (List Entity × Cursor)
  | 0, c, found => .ok (found.reverse, c)
  | fuel + 1, c, found =>
    if c.atEnd then .ok (found.reverse, c)
    else do
      let c := c.skipSpaces
      if c.looksAt "<!ENTITY" then
        let (declared, c) ← readEntity c
        readSubset fuel c (declared.toList ++ found)
      else if c.looksAt "<!--" then readSubset fuel (← readComment c) found
      else if c.looksAt "<?" then readSubset fuel (← readInstruction c) found
      else if c.looksAt "]" then .ok (found.reverse, ← (c.skip 1).skipSpaces.expect ">")
      else if c.looksAt "<!ELEMENT" || c.looksAt "<!ATTLIST" || c.looksAt "<!NOTATION" then
        readSubset fuel (← c.quoted '>').2 found
      else .error .unexpectedText

/-- The entities of a document type, and the cursor behind it. -/
def readDocumentType (c : Cursor) : Except Fault (List Entity × Cursor) := do
  let c ← (c.skip 9).demandSpaces
  let (_, c) ← c.name
  let c := (← readExternalId c.skipSpaces).skipSpaces
  match c.rest with
  | '>' :: _ => .ok ([], c.skip 1)
  | '[' :: _ => readSubset (c.rest.length + 1) (c.skip 1) []
  | _ => .error .unexpectedText

/-- What has been read of some content: its events, latest first, the number of tags still open,
the number of nested references, and the place reached. -/
structure Progress where
  events : List Event
  openTags : Nat
  references : Nat
  cursor : Cursor
  deriving Repr

/-- The events of the rest of a tag, with its attributes. A text that ends inside a tag leaves the
tag unfinished. -/
def readTagRest (value : List Char → Nat → Except Fault (List Char × Nat)) :
    Nat → Progress → Except Fault Progress
  | 0, p => .ok p
  | fuel + 1, p =>
    if p.cursor.atEnd then .ok p
    else do
      let c := p.cursor.skipSpaces
      match c.rest with
      | [] => .error .unexpectedText
      | '/' :: _ =>
        let after ← (c.skip 1).expect ">"
        .ok { p with events := .tagEmpty after.offset :: p.events, cursor := after }
      | '>' :: _ =>
        let after := c.skip 1
        .ok { p with
          events := .tagOpen after.offset :: p.events, openTags := p.openTags + 1, cursor := after }
      | _ =>
        if c.offset = p.cursor.offset then .error .unexpectedText
        let (raw, after) ← readAttribute c
        let (decoded, references) ← value raw.value p.references
        let event := Event.attribute raw.name (String.ofList decoded) raw.span
        readTagRest value fuel
          { p with events := event :: p.events, references := references, cursor := after }

/-- The events of a tag and its attributes. -/
def readTag (value : List Char → Nat → Except Fault (List Char × Nat)) (p : Progress) :
    Except Fault Progress := do
  let (name, after) ← (p.cursor.skip 1).qualifiedName
  readTagRest value (after.rest.length + 1)
    { p with events := .tag name p.cursor.offset :: p.events, cursor := after }

/-- The events of an end tag. -/
def readEndTag (p : Progress) : Except Fault Progress := do
  let (name, after) ← (p.cursor.skip 2).qualifiedName
  let after ← after.skipSpaces.expect ">"
  .ok { p with
    events := .endTag name after.offset :: p.events, openTags := p.openTags - 1, cursor := after }

/-- The events that the references in a stretch of text stand for. -/
def readReferences (entities : List Entity) (nested : Bool)
    (inner : Cursor → List Event → Nat → Except Fault (List Event × Nat)) :
    Nat → List Char → List Event → Nat → Except Fault (List Event × Nat)
  | 0, _, events, used => .ok (events, used)
  | _, [], events, used => .ok (events, used)
  | fuel + 1, '&' :: cs, events, used => do
    let some (reference, rest) := reference? cs | .error .malformedReference
    match reference with
    | .character _ => readReferences entities nested inner fuel rest events used
    | .entity name =>
      let e ← findEntity entities name
      let used ← countReference nested used
      let (events, used) ← inner e.text (.entityStart :: events) used
      let used := if nested then used else 0
      readReferences entities nested inner fuel rest (.entityStop :: events) used
  | fuel + 1, _ :: cs, events, used => readReferences entities nested inner fuel cs events used

/-- The events of content, until the tag that it belongs to is closed or the text ends. -/
def readContentWith (value : List Char → Nat → Except Fault (List Char × Nat))
    (references : List Char → List Event → Nat → Except Fault (List Event × Nat)) :
    Nat → Progress → Except Fault Progress
  | 0, p => .ok p
  | fuel + 1, p =>
    if p.cursor.atEnd || p.openTags = 0 then .ok p
    else do
      let c := p.cursor
      let next ←
        if c.looksAt "<!--" then do .ok { p with cursor := ← readComment c }
        else if c.looksAt "<![CDATA[" then do
          .ok { p with cursor := (← (c.skip 9).takeUntil "]]>").2 }
        else if c.looksAt "<!" then .error .unexpectedText
        else if c.looksAt "<?" then do .ok { p with cursor := ← readInstruction c }
        else if c.looksAt "</" then readEndTag p
        else if c.looksAt "<" then readTag value p
        else do
          let (text, after) ← c.takeAllowedWhile (· != '<')
          if Chars.occursIn "]]>".toList text then .error .invalidText
          let (events, used) ← references text p.events p.references
          .ok { p with events := events, references := used, cursor := after }
      readContentWith value references fuel next

/-- The events of content at a nesting depth of entities that leaves `level` further levels. -/
def readContent (entities : List Entity) : Nat → Progress → Except Fault Progress
  | 0, p =>
    readContentWith (valueAt entities 0)
      (fun cs events used =>
        readReferences entities true (fun _ _ _ => .error .entityLoop) (cs.length + 1) cs events
          used)
      (p.cursor.rest.length + 1) p
  | level + 1, p =>
    let inner (text : Cursor) (events : List Event) (used : Nat) := do
      let q ← readContent entities level ⟨events, 1, used, text⟩
      .ok (q.events, q.references)
    readContentWith (valueAt entities (level + 1))
      (fun cs events used =>
        readReferences entities (level + 1 < maxNesting) inner (cs.length + 1) cs events used)
      (p.cursor.rest.length + 1) p

/-- The events of the root element, and the cursor behind it. -/
def readRoot (entities : List Entity) (c : Cursor) : Except Fault Progress := do
  let p ← readTag (valueAt entities maxNesting) ⟨[], 0, 0, c⟩
  readContent entities maxNesting p

/-- The events of a document, in order. A byte order mark in front of it counts three bytes. -/
def readEvents (text : List Char) : Except Fault (List Event) := do
  let fuel := text.length + 1
  let start : Cursor := ⟨0, text⟩
  let c := if start.looksAt "\uFEFF" then start.skip 1 else start
  let c ← if c.looksAt "<?xml " then readDeclaration c else .ok c
  let c ← readMisc fuel c
  let (entities, c) ← if c.looksAt "<!DOCTYPE" then do
      let (entities, c) ← readDocumentType c
      .ok (entities, ← readMisc fuel c)
    else .ok ([], c)
  let p ← if c.looksAt "<" then readRoot entities c else .ok ⟨[], 0, 0, c⟩
  let c ← readMisc fuel p.cursor
  if c.atEnd then .ok p.events.reverse else .error .unexpectedText

end SqlMapper.Markup

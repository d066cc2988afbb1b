import SqlMapper.Yaml.Scalar

/-!
# Tokens

A YAML text as a sequence of tokens. Indentation becomes explicit: a block collection is enclosed
by a start and an end token. A key that is not marked as one is recognised by the colon behind it;
it stands on one line, and its tokens are marked afterwards. What stands where the innermost block
collection begins must be a key.

## Main definitions

* `Token`: the parts of a text.
* `Scanner`: what has been read so far, with the collections that are open.
* `tokens?`: the tokens of a text.
-/

namespace SqlMapper.Yaml

/-- A part of a text. -/
inductive Token where
  | version (major minor : Nat)
  | tagHandle (handle uri : String)
  | documentStart
  | documentEnd
  | blockSequence
  | blockMapping
  | blockEnd
  | flowSequence
  | flowSequenceEnd
  | flowMapping
  | flowMappingEnd
  | blockEntry
  | flowEntry
  | key
  | value
  | alias (name : String)
  | anchor (name : String)
  | tag (handle rest : String)
  | scalar (text : String) (plain : Bool)
  deriving Repr, DecidableEq

/-- A token that may turn out to begin a key. -/
structure KeyCandidate where
  /-- How many tokens stand before it. -/
  position : Nat
  index : Nat
  line : Nat
  column : Nat
  /-- Whether it must begin a key, since it stands where the innermost block collection begins. -/
  required : Bool
  deriving Repr

/-- What has been read so far. -/
structure Scanner where
  place : Place
  tokens : Array Token
  /-- The column of the innermost block collection; −1 outside all of them. -/
  indent : Int
  /-- The columns of the block collections around it. -/
  outerIndents : List Int
  /-- How many brackets are open. -/
  flowLevel : Nat
  /-- Whether a key may begin at the place reached. -/
  keyAllowed : Bool
  /-- The latest candidate for a key inside the innermost bracket, or outside brackets. -/
  candidate : Option KeyCandidate
  /-- The candidates around the open brackets. -/
  outerCandidates : List (Option KeyCandidate)
  deriving Repr

namespace Scanner

/-- The scanner at the start of a text. -/
def start (text : List Char) : Scanner :=
  ⟨Place.start text, #[], -1, [], 0, true, none, []⟩

/-- The scanner with one more token. -/
def emit (s : Scanner) (t : Token) : Scanner :=
  { s with tokens := s.tokens.push t }

/-- Whether some bracket is open. -/
def inFlow (s : Scanner) : Bool :=
  s.flowLevel != 0

/-- Ends the block collections that lie right of a column. -/
def leaveIndents (column : Int) : Nat → Scanner → Scanner
  | 0, s => s
  | fuel + 1, s =>
    if s.inFlow || s.indent ≤ column then s
    else
      match s.outerIndents with
      | [] => { s.emit .blockEnd with indent := -1 }
      | i :: is => leaveIndents column fuel { s.emit .blockEnd with indent := i, outerIndents := is }

/-- Ends the block collections that lie right of a column. -/
def unroll (s : Scanner) (column : Int) : Scanner :=
  s.leaveIndents column (s.outerIndents.length + 1)

/-- Begins a block collection at a column, unless one begins there already. Its first token is put
at `position`. -/
def roll (s : Scanner) (column : Nat) (position : Nat) (t : Token) : Scanner :=
  if s.inFlow || (column : Int) ≤ s.indent then s
  else
    { s with
      tokens := s.tokens.insertIdxIfInBounds position t
      indent := column
      outerIndents := s.indent :: s.outerIndents }

/-- Forgets the candidate for a key, unless it must be one. -/
def dropCandidate? (s : Scanner) : Option Scanner :=
  if s.candidate.any (·.required) then none else some { s with candidate := none }

/-- Takes the place reached as the candidate for a key, if one may begin there. -/
def noteCandidate? (s : Scanner) : Option Scanner := do
  if s.keyAllowed then
    let s ← s.dropCandidate?
    let p := s.place
    let required := !s.inFlow && s.indent == (p.column : Int)
    some { s with candidate := some ⟨s.tokens.size, p.index, p.line, p.column, required⟩ }
  else some s

/-- The scanner behind the blanks, comments and line breaks in front of the next token. Outside
brackets a new line may begin with a key, and a tab may not stand where a key may begin. -/
def skipToToken : Nat → Scanner → Scanner
  | 0, s => s
  | fuel + 1, s =>
    let p := s.place
    let p := if p.column == 0 && p.has 0 (·.toNat == 0xFEFF) then p.skip else p
    let p := p.skipWhile fun c => c == ' ' || ((s.inFlow || !s.keyAllowed) && c == '\t')
    let p := p.skipComment
    if p.has 0 isBreak then
      skipToToken fuel { s with place := p.skipBreak, keyAllowed := s.keyAllowed || !s.inFlow }
    else { s with place := p }

/-- Ends all block collections, as markers and directives between documents do. -/
def leaveAll? (s : Scanner) : Option Scanner := do
  let s ← (s.unroll (-1)).dropCandidate?
  some { s with keyAllowed := false }

/-- Reads a document marker. -/
def documentMarker? (s : Scanner) (t : Token) : Option Scanner := do
  let s ← s.leaveAll?
  some { s.emit t with place := Place.skipMany 3 s.place }

/-- Reads an opening bracket. -/
def openBracket? (s : Scanner) (t : Token) : Option Scanner := do
  let s ← s.noteCandidate?
  some { s.emit t with
    place := s.place.skip
    flowLevel := s.flowLevel + 1
    keyAllowed := true
    candidate := none
    outerCandidates := s.candidate :: s.outerCandidates }

/-- Reads a closing bracket. -/
def closeBracket? (s : Scanner) (t : Token) : Option Scanner := do
  let s ← s.dropCandidate?
  let (candidate, outer) := match s.outerCandidates with
    | [] => (none, [])
    | c :: cs => (c, cs)
  some { s.emit t with
    place := s.place.skip
    flowLevel := s.flowLevel - 1
    keyAllowed := false
    candidate := candidate
    outerCandidates := outer }

/-- Reads a comma between entries. -/
def entryComma? (s : Scanner) : Option Scanner := do
  let s ← s.dropCandidate?
  some { s.emit .flowEntry with place := s.place.skip, keyAllowed := true }

/-- Reads the dash of an entry. -/
def entryDash? (s : Scanner) : Option Scanner := do
  if !s.inFlow && !s.keyAllowed then none
  let s ← (s.roll s.place.column s.tokens.size .blockSequence).dropCandidate?
  some { s.emit .blockEntry with place := s.place.skip, keyAllowed := true }

/-- Reads the mark of a key. -/
def keyMark? (s : Scanner) : Option Scanner := do
  if !s.inFlow && !s.keyAllowed then none
  let s ← (s.roll s.place.column s.tokens.size .blockMapping).dropCandidate?
  some { s.emit .key with place := s.place.skip, keyAllowed := !s.inFlow }

/-- Whether a candidate is still on the line reached and close enough. -/
def isKey (s : Scanner) (c : KeyCandidate) : Bool :=
  c.line == s.place.line && s.place.index ≤ c.index + 1024

/-- Reads the colon of a value. The tokens from the candidate on become its key. -/
def valueMark? (s : Scanner) : Option Scanner := do
  match s.candidate.filter s.isKey with
  | some c =>
    let s := { s with tokens := s.tokens.insertIdxIfInBounds c.position .key }
    let s := s.roll c.column c.position .blockMapping
    some { s.emit .value with place := s.place.skip, keyAllowed := false, candidate := none }
  | none =>
    if !s.inFlow && !s.keyAllowed then none
    let s ← s.dropCandidate?
    let s := s.roll s.place.column s.tokens.size .blockMapping
    some { s.emit .value with place := s.place.skip, keyAllowed := !s.inFlow }

/-- Reads the name of an anchor or of a reference to one. -/
def anchorName? (s : Scanner) (token : String → Token) : Option Scanner := do
  let s ← s.noteCandidate?
  let p := s.place.skip
  let name := p.rest.takeWhile isNameChar
  let next := p.skipWhile isNameChar
  let ended := next.blankOrEnd 0 || next.has 0 fun c => "?:,]\x7d%@`".toList.contains c
  if name.isEmpty || !ended then none
  else some { s.emit (token (String.ofList name)) with place := next, keyAllowed := false }

/-- The characters of a tag. -/
def isTagChar (c : Char) : Bool :=
  isNameChar c || ";/?:@&=+$.!~*'()".toList.contains c

/-- The text of a tag made of characters that satisfy `f` and of escaped ones, and the place
behind it. -/
def tagText? (f : Char → Bool) : Nat → Place → Option (List Char × Place)
  | 0, p => some ([], p)
  | fuel + 1, p =>
    match p.rest with
    | '%' :: _ => do
      let (c, next) ← Scalar.codeEscape? 2 p.skip
      if c.toNat ≥ 0x80 then none
      let (text, reached) ← tagText? f fuel next
      some (c :: text, reached)
    | c :: _ =>
      if f c then (tagText? f fuel p.skip).map fun r => (c :: r.1, r.2) else some ([], p)
    | [] => some ([], p)

/-- The handle in front of a tag, with the exclamation mark behind it if there is one, and the
place behind it. -/
def tagHandleAt (p : Place) : List Char × Place :=
  let name := p.skip.rest.takeWhile isNameChar
  let next := p.skip.skipWhile isNameChar
  if next.has 0 (· == '!') then ('!' :: name ++ ['!'], next.skip) else ('!' :: name, next)

/-- The handle and the rest of the tag at a place, and the place behind it. -/
def tagParts? (p : Place) : Option (List Char × List Char × Place) :=
  if p.has 1 (· == '<') then do
    let (uri, next) ← tagText? (fun c => isTagChar c || c == ',' || c == '[' || c == ']')
      p.rest.length p.skip.skip
    if uri.isEmpty || !next.has 0 (· == '>') then none
    some ([], uri, next.skip)
  else do
    let (handle, next) := tagHandleAt p
    let (text, reached) ← tagText? isTagChar p.rest.length next
    if handle.length > 1 && handle.getLast? == some '!' then
      if text.isEmpty then none else some (handle, text, reached)
    else
      let rest := handle.drop 1 ++ text
      if rest.isEmpty then some ([], ['!'], reached) else some (['!'], rest, reached)

/-- Reads a tag. -/
def tag? (s : Scanner) : Option Scanner := do
  let s ← s.noteCandidate?
  let (handle, rest, next) ← tagParts? s.place
  if !next.blankOrEnd 0 && !(s.inFlow && next.has 0 (· == ',')) then none
  some { s.emit (.tag (String.ofList handle) (String.ofList rest)) with
    place := next, keyAllowed := false }

/-- Reads a number of a version, of at most nine digits. -/
def versionNumber? (p : Place) : Option (Nat × Place) :=
  let digits := p.rest.takeWhile Char.isDigit
  if digits.isEmpty || digits.length > 9 then none
  else some (digits.foldl (fun n d => n * 10 + (d.toNat - '0'.toNat)) 0, p.skipWhile Char.isDigit)

/-- Reads a directive, which takes up a line. -/
def directive? (s : Scanner) : Option Scanner := do
  let s ← s.leaveAll?
  let p := s.place.skip
  let name := String.ofList (p.rest.takeWhile isNameChar)
  let p := p.skipWhile isNameChar
  if !p.blankOrEnd 0 then none
  let p := p.skipWhile isBlank
  let (token, p) ←
    if name = "YAML" then do
      let (major, p) ← versionNumber? p
      if !p.has 0 (· == '.') then none
      let (minor, p) ← versionNumber? p.skip
      some (Token.version major minor, p)
    else if name = "TAG" then do
      if !p.has 0 (· == '!') then none
      let (handle, p) := tagHandleAt p
      if handle.length > 1 && handle.getLast? != some '!' then none
      if !p.has 0 isBlank then none
      let p := p.skipWhile isBlank
      let (uri, p) ← tagText? (fun c => isTagChar c || c == ',' || c == '[' || c == ']')
        p.rest.length p
      if uri.isEmpty || !p.blankOrEnd 0 then none
      some (Token.tagHandle (String.ofList handle) (String.ofList uri), p)
    else none
  let p := (p.skipWhile isBlank).skipComment
  if !p.breakOrEnd then none
  some { s.emit token with place := p.skipBreak }

/-- Reads a block scalar. -/
def blockScalar? (s : Scanner) (literal : Bool) : Option Scanner := do
  let s ← s.dropCandidate?
  let (text, next) ← Scalar.block? literal s.indent s.place
  some { s.emit (.scalar (String.ofList text) false) with place := next, keyAllowed := true }

/-- Reads a scalar in quotes. -/
def quotedScalar? (s : Scanner) (single : Bool) : Option Scanner := do
  let s ← s.noteCandidate?
  let (text, next) ← Scalar.quoted? single s.place
  some { s.emit (.scalar (String.ofList text) false) with place := next, keyAllowed := false }

/-- Reads a plain scalar. -/
def plainScalar? (s : Scanner) : Option Scanner := do
  let s ← s.noteCandidate?
  let (text, next, onNewLine) ← Scalar.plain? s.inFlow (s.indent + 1) s.place
  some { s.emit (.scalar (String.ofList text) true) with place := next, keyAllowed := onNewLine }

/-- Whether a plain scalar may begin at a place. -/
def beginsPlain (s : Scanner) (c : Char) : Bool :=
  (!isBlank c && !isBreak c && !"-?:,[]\x7b\x7d#&*!|>'\"%@`".toList.contains c) ||
    (c == '-' && !s.place.has 1 isBlank) ||
    (!s.inFlow && (c == '?' || c == ':') && !s.place.blankOrEnd 1)

/-- Reads the token that begins with the character `c`. -/
def token? (s : Scanner) (c : Char) : Option Scanner :=
  let p := s.place
  if p.column == 0 && c == '%' then s.directive?
  else if p.lineMarked "---" then s.documentMarker? .documentStart
  else if p.lineMarked "..." then s.documentMarker? .documentEnd
  else if c == '[' then s.openBracket? .flowSequence
  else if c == '\x7b' then s.openBracket? .flowMapping
  else if c == ']' then s.closeBracket? .flowSequenceEnd
  else if c == '\x7d' then s.closeBracket? .flowMappingEnd
  else if c == ',' then s.entryComma?
  else if c == '-' && p.blankOrEnd 1 then s.entryDash?
  else if c == '?' && (s.inFlow || p.blankOrEnd 1) then s.keyMark?
  else if c == ':' && (s.inFlow || p.blankOrEnd 1) then s.valueMark?
  else if c == '*' then s.anchorName? .alias
  else if c == '&' then s.anchorName? .anchor
  else if c == '!' then s.tag?
  else if c == '|' && !s.inFlow then s.blockScalar? true
  else if c == '>' && !s.inFlow then s.blockScalar? false
  else if c == '\'' then s.quotedScalar? true
  else if c == '"' then s.quotedScalar? false
  else if s.beginsPlain c then s.plainScalar?
  else none

/-- Reads all tokens from a place on. -/
def run? : Nat → Scanner → Option (List Token)
  | 0, _ => none
  | fuel + 1, s =>
    let s := s.skipToToken (s.place.rest.length + 1)
    let s := s.unroll s.place.column
    match s.place.rest with
    | [] => s.leaveAll?.map fun s => s.tokens.toList
    | c :: _ => do run? fuel (← s.token? c)

end Scanner

/-- The tokens of a text; `none` if it is not well-formed. -/
def tokens? (text : List Char) : Option (List Token) :=
  if text.all isAllowed then (Scanner.start text).run? (text.length + 2) else none

end SqlMapper.Yaml

import SqlMapper.Yaml.Place

/-!
# Scalars

The text of a scalar in each of its styles. Plain and quoted scalars may run over several lines:
a single line break between two words is one blank, and of several breaks in a row the first
disappears. Block scalars keep their breaks or fold them likewise.

## Main definitions

* `plain?`: a scalar without quotes.
* `quoted?`: a scalar in single or double quotes.
* `block?`: a scalar of indented lines.
-/

namespace SqlMapper.Yaml.Scalar

/-- What stands between two words of a scalar. -/
inductive Gap where
  /-- Blanks on one line. -/
  | inline (blanks : List Char)
  /-- Line breaks, the first and the others. -/
  | lines (first more : List Char)
  deriving Repr

/-- The text that a gap stands for. -/
def Gap.text : Gap → List Char
  | .inline blanks => blanks
  | .lines first more =>
    if first = ['\n'] then (if more.isEmpty then [' '] else more) else first ++ more

/-- Whether the gap holds a line break. -/
def Gap.broken : Gap → Bool
  | .inline _ => false
  | .lines _ _ => true

/-- The gap from a place on, added to what stands before it, and the place behind it. On a line of
its own a tab must not stand left of column `tabLimit`. -/
def gap? (tabLimit : Int) : Nat → Place → Gap → Option (Gap × Place)
  | 0, p, g => some (g, p)
  | fuel + 1, p, g =>
    match p.rest with
    | [] => some (g, p)
    | c :: _ =>
      if isBlank c then
        match g with
        | .inline blanks => gap? tabLimit fuel p.skip (.inline (blanks ++ [c]))
        | .lines _ _ =>
          if c == '\t' && (p.column : Int) < tabLimit then none
          else gap? tabLimit fuel p.skip g
      else if isBreak c then
        let (text, next) := p.takeBreak
        match g with
        | .inline _ => gap? tabLimit fuel next (.lines text [])
        | .lines first more => gap? tabLimit fuel next (.lines first (more ++ text))
      else some (g, p)

/-- The characters that have a meaning of their own inside brackets. -/
def isFlowIndicator (c : Char) : Bool :=
  c == ',' || c == '[' || c == ']' || c == '\x7b' || c == '\x7d'

/-- The word of a plain scalar at a place, and the place behind it. Inside brackets a colon must
not stand directly before an indicator. -/
def plainWord? (inFlow : Bool) : Nat → Place → Option (List Char × Place)
  | 0, p => some ([], p)
  | fuel + 1, p =>
    match p.rest with
    | [] => some ([], p)
    | c :: _ =>
      if isBlank c || isBreak c then some ([], p)
      else if inFlow && c == ':' && p.has 1 (fun d => isFlowIndicator d || d == '?') then none
      else if (c == ':' && p.blankOrEnd 1) || (inFlow && isFlowIndicator c) then some ([], p)
      else (plainWord? inFlow fuel p.skip).map fun r => (c :: r.1, r.2)

/-- The rest of a plain scalar behind the gap `g`, the place reached, and whether that place is on
a new line. Outside brackets the scalar ends at a line that does not reach column `indent`. -/
def plainRest? (inFlow : Bool) (indent : Int) :
    Nat → Place → Gap → Option (List Char × Place × Bool)
  | 0, p, g => some ([], p, g.broken)
  | fuel + 1, p, g =>
    if p.atDocumentMarker || p.has 0 (· == '#') then some ([], p, g.broken)
    else do
      let (word, afterWord) ← plainWord? inFlow p.rest.length p
      let front := if word.isEmpty then [] else g.text ++ word
      let g := if word.isEmpty then g else .inline []
      if !afterWord.has 0 (fun c => isBlank c || isBreak c) then
        some (front, afterWord, g.broken)
      else
        let (g, next) ← gap? indent (afterWord.rest.length + 1) afterWord (.inline [])
        if !inFlow && (next.column : Int) < indent then some (front, next, g.broken)
        else
          let (text, reached, onNewLine) ← plainRest? inFlow indent fuel next g
          some (front ++ text, reached, onNewLine)

/-- The plain scalar at a place, the place reached, and whether that place is on a new line. -/
def plain? (inFlow : Bool) (indent : Int) (p : Place) : Option (List Char × Place × Bool) :=
  plainRest? inFlow indent (p.rest.length + 1) p (.inline [])

/-- The value of a hexadecimal digit. -/
def hexDigit? (c : Char) : Option Nat :=
  if c.isDigit then some (c.toNat - '0'.toNat)
  else if 'a' ≤ c && c ≤ 'f' then some (c.toNat - 'a'.toNat + 10)
  else if 'A' ≤ c && c ≤ 'F' then some (c.toNat - 'A'.toNat + 10)
  else none

/-- The number that hexadecimal digits stand for. -/
def hexNumber? (digits : List Char) : Option Nat :=
  digits.foldlM (fun n d => (hexDigit? d).map (n * 16 + ·)) 0

/-- The character with the number that `width` hexadecimal digits at a place stand for, and the
place behind them. -/
def codeEscape? (width : Nat) (p : Place) : Option (Char × Place) := do
  let digits := p.rest.take width
  if digits.length < width then none
  let n ← hexNumber? digits
  if n.isValidChar then some (Char.ofNat n, Place.skipMany width p) else none

/-- The character that a backslash and the character at a place stand for, and the place behind
the escape. -/
def escape? (p : Place) : Option (Char × Place) :=
  match p.rest with
  | [] => none
  | c :: _ =>
    let one (d : Char) : Option (Char × Place) := some (d, p.skip)
    match c with
    | '0' => one '\x00'
    | 'a' => one '\x07'
    | 'b' => one '\x08'
    | 't' => one '\t'
    | '\t' => one '\t'
    | 'n' => one '\n'
    | 'v' => one '\x0b'
    | 'f' => one '\x0c'
    | 'r' => one '\r'
    | 'e' => one '\x1b'
    | ' ' => one ' '
    | '"' => one '"'
    | '/' => one '/'
    | '\\' => one '\\'
    | 'N' => one '\u0085'
    | '_' => one '\u00a0'
    | 'L' => one '\u2028'
    | 'P' => one '\u2029'
    | 'x' => codeEscape? 2 p.skip
    | 'u' => codeEscape? 4 p.skip
    | 'U' => codeEscape? 8 p.skip
    | _ => none

/-- The word of a quoted scalar at a place, the place behind it, and whether a line break behind
it is escaped. -/
def quotedWord? (single : Bool) : Nat → Place → Option (List Char × Place × Bool)
  | 0, p => some ([], p, false)
  | fuel + 1, p =>
    let mark := if single then '\'' else '"'
    match p.rest with
    | [] => some ([], p, false)
    | c :: _ =>
      let more (d : Char) (next : Place) :=
        (quotedWord? single fuel next).map fun r => (d :: r.1, r.2)
      if isBlank c || isBreak c then some ([], p, false)
      else if c == mark then
        if single && p.has 1 (· == mark) then more mark p.skip.skip else some ([], p, false)
      else if !single && c == '\\' then
        if p.has 1 isBreak then some ([], p.skip.skipBreak, true)
        else do
          let (d, next) ← escape? p.skip
          more d next
      else more c p.skip

/-- The rest of a quoted scalar, whose opening quote has been read, and the place behind its
closing quote. -/
def quotedRest? (single : Bool) : Nat → Place → Option (List Char × Place)
  | 0, _ => none
  | fuel + 1, p =>
    if p.atDocumentMarker || p.rest.isEmpty then none
    else do
      let (word, afterWord, escapedBreak) ← quotedWord? single p.rest.length p
      if afterWord.has 0 (· == if single then '\'' else '"') then some (word, afterWord.skip)
      else
        let before : Gap := if escapedBreak then .lines [] [] else .inline []
        let (g, next) ← gap? 0 (afterWord.rest.length + 1) afterWord before
        let (text, reached) ← quotedRest? single fuel next
        some (word ++ g.text ++ text, reached)

/-- The scalar in quotes at a place, and the place behind it. -/
def quoted? (single : Bool) (p : Place) : Option (List Char × Place) :=
  quotedRest? single (p.rest.length + 1) p.skip

/-- What becomes of the line breaks at the end of a block scalar. -/
inductive Chomping where
  | strip
  | clip
  | keep
  deriving Repr, DecidableEq

/-- The chomping that a character asks for. -/
def chomping? : Char → Option Chomping
  | '-' => some .strip
  | '+' => some .keep
  | _ => none

/-- The number of a digit other than zero. -/
def increment? (c : Char) : Option Nat :=
  if c.isDigit && c != '0' then some (c.toNat - '0'.toNat) else none

/-- The chomping and the indentation asked for in the first line of a block scalar, and the place
behind them. -/
def blockHeader? (p : Place) : Option (Chomping × Option Nat × Place) :=
  match p.rest with
  | c :: rest =>
    match chomping? c with
    | some chomping =>
      match rest with
      | d :: _ =>
        if d.isDigit then (increment? d).map fun n => (chomping, some n, p.skip.skip)
        else some (chomping, none, p.skip)
      | [] => some (chomping, none, p.skip)
    | none =>
      if c.isDigit then do
        let n ← increment? c
        match rest with
        | d :: _ =>
          match chomping? d with
          | some chomping => some (chomping, some n, p.skip.skip)
          | none => some (.clip, some n, p.skip)
        | [] => some (.clip, some n, p.skip)
      else some (.clip, none, p)
  | [] => some (.clip, none, p)

/-- The line breaks in front of the next line that is not empty, the place of its first character
behind the indentation, and the deepest column of blanks met. While no indentation is known,
blanks of any number count as such. -/
def blockBreaks? (indent : Option Nat) :
    Nat → Place → Nat → List Char → Option (List Char × Place × Nat)
  | 0, p, deepest, breaks => some (breaks, p, deepest)
  | fuel + 1, p, deepest, breaks =>
    let inIndentation (column : Nat) : Bool := match indent with
      | some n => column < n
      | none => true
    let spaces := (p.rest.takeWhile (· == ' ')).length
    let taken := match indent with
      | some n => min spaces (n - p.column)
      | none => spaces
    let p := Place.skipMany taken p
    let deepest := max deepest p.column
    if inIndentation p.column && p.has 0 (· == '\t') then none
    else if p.has 0 isBreak then
      let (text, next) := p.takeBreak
      blockBreaks? indent fuel next deepest (breaks ++ text)
    else some (breaks, p, deepest)

/-- The lines of a block scalar with this indentation, from a place on. The break before the line
at hand and the further breaks behind it are given, and whether the line before began with a
blank. Returned are the text, the last break, the breaks behind it, and the place reached. -/
def blockLines? (literal : Bool) (indent : Nat) :
    Nat → Place → List Char → List Char → Bool →
      Option (List Char × List Char × List Char × Place)
  | 0, p, lead, trail, _ => some ([], lead, trail, p)
  | fuel + 1, p, lead, trail, afterBlank =>
    if p.column != indent || p.rest.isEmpty then some ([], lead, trail, p)
    else do
      let onBlank := p.has 0 isBlank
      let joined :=
        if !literal && lead == ['\n'] && !afterBlank && !onBlank then
          if trail.isEmpty then [' '] else []
        else lead
      let line := p.rest.takeWhile fun c => !isBreak c
      let (lead', next) := (p.skipWhile fun c => !isBreak c).takeBreak
      let (trail', next, _) ← blockBreaks? (some indent) (next.rest.length + 1) next 0 []
      let (text, lead', trail', reached) ← blockLines? literal indent fuel next lead' trail' onBlank
      some (joined ++ trail ++ line ++ text, lead', trail', reached)

/-- The block scalar at a place, inside a collection at column `outer`, and the place behind it.
Literal scalars keep their line breaks, others fold them. -/
def block? (literal : Bool) (outer : Int) (p : Place) : Option (List Char × Place) := do
  let (chomping, increment, p) ← blockHeader? p.skip
  let p := (p.skipWhile isBlank).skipComment
  if !p.breakOrEnd then none
  let p := p.skipBreak
  let asked := increment.map fun n => if outer ≥ 0 then outer.toNat + n else n
  let (trail, p, deepest) ← blockBreaks? asked (p.rest.length + 1) p 0 []
  let indent := asked.getD (max (max deepest (outer + 1).toNat) 1)
  let (text, lead, trail, p) ← blockLines? literal indent (p.rest.length + 1) p [] trail false
  let tail := match chomping with
    | .strip => []
    | .clip => lead
    | .keep => lead ++ trail
  some (text ++ tail, p)

end SqlMapper.Yaml.Scalar

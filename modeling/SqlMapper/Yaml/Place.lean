import SqlMapper.Text

/-!
# Places in a YAML text

A place is what is left of a text, with the number of characters passed, the line and the column.
Line breaks count as one character of their own: a carriage return and a line feed in a row are
one break.

## Main definitions

* `Place.skip`, `Place.skipBreak`: moving over a character or a line break.
* `Place.atDocumentMarker`: whether a line begins with a document marker.
-/

namespace SqlMapper.Yaml

/-- Spaces and tabs. -/
def isBlank (c : Char) : Bool :=
  c == ' ' || c == '\t'

/-- The characters that end a line. -/
def isBreak (c : Char) : Bool :=
  c == '\r' || c == '\n' || c.toNat == 0x85 || c.toNat == 0x2028 || c.toNat == 0x2029

/-- Whether a character may occur in a text at all. -/
def isAllowed (c : Char) : Bool :=
  let n := c.toNat
  n == 0x9 || n == 0xA || n == 0xD || (0x20 ≤ n && n ≤ 0x7E) || n == 0x85 ||
    (0xA0 ≤ n && n ≤ 0xD7FF) || (0xE000 ≤ n && n ≤ 0xFFFD) || 0x10000 ≤ n

/-- The letters, digits and marks of anchors and handles. -/
def isNameChar (c : Char) : Bool :=
  c.isAlphanum || c == '_' || c == '-'

/-- A place in a text. -/
structure Place where
  rest : List Char
  index : Nat
  line : Nat
  column : Nat
  deriving Repr

namespace Place

/-- The start of a text. -/
def start (text : List Char) : Place :=
  ⟨text, 0, 0, 0⟩

/-- The place behind one character. -/
def skip (p : Place) : Place :=
  ⟨p.rest.drop 1, p.index + 1, p.line, p.column + 1⟩

/-- The place behind `n` characters. -/
def skipMany : Nat → Place → Place
  | 0, p => p
  | n + 1, p => skipMany n p.skip

/-- The place behind the run of characters that satisfy `f`. -/
def skipWhile (p : Place) (f : Char → Bool) : Place :=
  let run := p.rest.takeWhile f
  ⟨p.rest.dropWhile f, p.index + run.length, p.line, p.column + run.length⟩

/-- The text that the line break at a place stands for, and the place behind it. Breaks become a
line feed, but for the two separators of lines and paragraphs. -/
def takeBreak (p : Place) : List Char × Place :=
  let next (text : List Char) (n : Nat) : List Char × Place :=
    (text, ⟨p.rest.drop n, p.index + n, p.line + 1, 0⟩)
  match p.rest with
  | '\r' :: '\n' :: _ => next ['\n'] 2
  | c :: _ =>
    if !isBreak c then ([], p)
    else if c.toNat == 0x2028 || c.toNat == 0x2029 then next [c] 1
    else next ['\n'] 1
  | [] => ([], p)

/-- The place behind the line break, if there is one. -/
def skipBreak (p : Place) : Place :=
  p.takeBreak.2

/-- Whether the character `n` places further on satisfies `f`. -/
def has (p : Place) (n : Nat) (f : Char → Bool) : Bool :=
  match p.rest[n]? with
  | some c => f c
  | none => false

/-- Whether the text ends `n` characters further on, or a blank or a break stands there. -/
def blankOrEnd (p : Place) (n : Nat) : Bool :=
  match p.rest[n]? with
  | some c => isBlank c || isBreak c
  | none => true

/-- Whether the text ends here or a line break stands here. -/
def breakOrEnd (p : Place) : Bool :=
  match p.rest with
  | c :: _ => isBreak c
  | [] => true

/-- Whether a line begins here with `text` and a blank, a break or the end behind it. -/
def lineMarked (p : Place) (text : String) : Bool :=
  p.column == 0 && text.toList.isPrefixOf p.rest && p.blankOrEnd text.toList.length

/-- Whether a line begins here with a document marker. -/
def atDocumentMarker (p : Place) : Bool :=
  p.lineMarked "---" || p.lineMarked "..."

/-- The place behind a comment, if one begins here. -/
def skipComment (p : Place) : Place :=
  if p.has 0 (· == '#') then p.skipWhile fun c => !isBreak c else p

end Place

end SqlMapper.Yaml

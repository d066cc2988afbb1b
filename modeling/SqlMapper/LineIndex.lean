import SqlMapper.Position
import SqlMapper.Text

/-!
# Line index

The table of line starts of a text, which converts between byte offsets and positions. A line
ends before its newline, so the offset of a newline is the last position of its line.

## Main definitions

* `LineIndex.ofText`: the table of a text.
* `LineIndex.position`: the position of an offset.
* `LineIndex.offset?`: the offset of a position, if the position lies on its line.
-/

namespace SqlMapper

/-- Where the lines of a text start, and how many bytes it has. -/
structure LineIndex where
  starts : List Nat
  length : Nat
  deriving Repr, DecidableEq

namespace LineIndex

/-- The offsets behind the newlines of a text that begins at `offset`. -/
def startsAfter (offset : Nat) : List Char → List Nat
  | [] => []
  | c :: cs =>
    let next := offset + c.utf8Size
    if c = '\n' then next :: startsAfter next cs else startsAfter next cs

/-- The line index of a text. -/
def ofText (text : String) : LineIndex :=
  ⟨0 :: startsAfter 0 text.toList, Text.byteLength text⟩

/-- The number of lines; a text without a newline has one. -/
def lineCount (index : LineIndex) : Nat :=
  index.starts.length

/-- The offset at which a line starts, if the text has that line. -/
def lineStart? (index : LineIndex) (line : Nat) : Option Nat :=
  index.starts[line]?

/-- The line that an offset lies on: the last one that starts at or before it. -/
def lineOf (index : LineIndex) (offset : Nat) : Nat :=
  index.starts.countP (· ≤ offset) - 1

/-- The line of an offset and the number of bytes between the start of that line and the
offset. Offsets past the end of the text are taken to lie on its last line. -/
def lineColumn (index : LineIndex) (offset : Nat) : Nat × Nat :=
  let line := index.lineOf offset
  (line, offset - (index.lineStart? line).getD 0)

/-- The largest number that a coordinate of a position can hold. -/
def maxCoordinate : Nat := 4294967295

/-- The position of an offset. Offsets past the end of the text stand for its end. -/
def position (index : LineIndex) (offset : Nat) : Position :=
  let (line, column) := index.lineColumn (min offset index.length)
  ⟨min line maxCoordinate, min column maxCoordinate⟩

/-- The offset at which a line ends, before its newline if it has one. -/
def lineEnd (index : LineIndex) (line : Nat) : Nat :=
  match index.lineStart? (line + 1) with
  | some next => next - 1
  | none => index.length

/-- The offset of a position; `none` if the text has no such line or the line ends before it. -/
def offset? (index : LineIndex) (p : Position) : Option Nat := do
  let start ← index.lineStart? p.line
  if start + p.character ≤ index.lineEnd p.line then some (start + p.character) else none

/-- The region between the positions of the two ends of a span. -/
def region (index : LineIndex) (s : Span) : Region :=
  ⟨index.position s.start, index.position s.stop⟩

end LineIndex

end SqlMapper

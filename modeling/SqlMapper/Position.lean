/-!
# Places in a text

A place is either a byte offset, kept in `Span`s by the reader of a document, or a line and a
character within it, kept in `Position`s and shown to people. Both count from zero; a written
position counts from one.

## Main definitions

* `Span`: the bytes from a start up to, but not including, a stop.
* `Position`: a line and a byte column.
* `Region`: the positions from a start up to, but not including, a stop.
-/

namespace SqlMapper

/-- The bytes of a text from `start` up to, but not including, `stop`. -/
structure Span where
  start : Nat
  stop : Nat
  deriving Repr, DecidableEq, Inhabited

namespace Span

/-- The span at `offset` that holds no byte. -/
def ofOffset (offset : Nat) : Span :=
  ⟨offset, offset⟩

/-- The number of bytes of the span. -/
def length (s : Span) : Nat :=
  s.stop - s.start

/-- Whether the span holds no byte. -/
def isEmpty (s : Span) : Bool :=
  s.start == s.stop

/-- Whether the byte at `offset` lies in the span. -/
def contains (s : Span) (offset : Nat) : Bool :=
  s.start ≤ offset && offset < s.stop

/-- Whether a caret at `offset` lies in the span or right behind its last byte. -/
def touches (s : Span) (offset : Nat) : Bool :=
  s.start ≤ offset && offset ≤ s.stop

/-- The span lies in a text of `length` bytes. -/
def Within (s : Span) (length : Nat) : Prop :=
  s.start ≤ s.stop ∧ s.stop ≤ length

/-- The written form of a span, `start..stop`. -/
def render (s : Span) : String :=
  toString s.start ++ ".." ++ toString s.stop

end Span

/-- A line and a byte column in it, both counted from zero. -/
structure Position where
  line : Nat
  character : Nat
  deriving Repr, DecidableEq, Inhabited

namespace Position

/-- Whether `p` comes before `q`: on an earlier line, or further left on the same one. -/
def before (p q : Position) : Bool :=
  p.line < q.line || (p.line == q.line && p.character < q.character)

/-- Whether `p` is `q` or comes before it. -/
def notAfter (p q : Position) : Bool :=
  !q.before p

/-- The written form of a position, counted from one. -/
def render (p : Position) : String :=
  toString (p.line + 1) ++ ":" ++ toString (p.character + 1)

end Position

/-- The positions from `start` up to, but not including, `stop`. -/
structure Region where
  start : Position
  stop : Position
  deriving Repr, DecidableEq, Inhabited

/-- Whether the position lies in the region. -/
def Region.contains (r : Region) (p : Position) : Bool :=
  r.start.notAfter p && p.before r.stop

end SqlMapper

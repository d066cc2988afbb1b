import SqlMapper.Position
import SqlMapper.Markup.Cursor

/-!
# Events

A document read from left to right, as the sequence of its tags and attributes. Text, comments,
processing instructions and character data leave no event. The text of an entity is read in place
of its reference, between two events of its own.
-/

namespace SqlMapper.Markup

/-- One step of a document. -/
inductive Event where
  /-- A tag begins, with its name, at `start`. -/
  | tag (name : QualifiedName) (start : Nat)
  /-- An attribute of the tag, with the place of its written value. -/
  | attribute (name : QualifiedName) (value : String) (span : Span)
  /-- The tag ends at `stop`, and content follows. -/
  | tagOpen (stop : Nat)
  /-- The tag ends at `stop`, and no content follows. -/
  | tagEmpty (stop : Nat)
  /-- An end tag, up to `stop`. -/
  | endTag (name : QualifiedName) (stop : Nat)
  /-- The text of an entity begins. -/
  | entityStart
  /-- The text of an entity ends. -/
  | entityStop
  deriving Repr, DecidableEq

end SqlMapper.Markup

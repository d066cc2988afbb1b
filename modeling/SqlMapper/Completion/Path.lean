import SqlMapper.Settings.Basic

/-!
# Paths being typed

The text in front of a caret, cut down to the path of names that is being typed. Around the path
may stand the placeholder of an editor, the marks of a parameter, and text before the last blank.

## Main definitions

* `TypedPath`: the names of a path; the last one is being typed.
* `tokenize?`: the path at the end of a text.
-/

namespace SqlMapper

/-- The names of a path, of which the last is being typed and may be empty. -/
structure TypedPath where
  segments : List String
  /-- Whether only names that begin with the last one are asked for. -/
  expectsPrefix : Bool
  deriving Repr, DecidableEq

namespace TypedPath

/-- The name being typed. -/
def target (p : TypedPath) : String :=
  p.segments.getLast?.getD ""

/-- The text without `ending`, if it ends so and `ending` is not empty. -/
def withoutEnd? (ending text : List Char) : Option (List Char) :=
  if ending.isEmpty then none else ending.isSuffixOf? text

/-- The text without `start`, if it begins so and `start` is not empty. -/
def withoutStart? (start text : List Char) : Option (List Char) :=
  if start.isEmpty then none else start.isPrefixOf? text

/-- The text without the placeholder, and whether its blanks had to be there too. -/
def dropPlaceholder (m : Markers) (text : List Char) : List Char × Bool :=
  match withoutEnd? (Chars.trim m.placeholder.toList) text with
  | some rest => (rest, false)
  | none =>
    match withoutEnd? m.placeholder.toList text with
    | some rest => (rest, true)
    | none => (text, false)

/-- The text without the mark behind a parameter, and whether it was there. -/
def dropCloser (m : Markers) (text : List Char) : List Char × Bool :=
  match withoutEnd? m.closer.toList text with
  | some rest => (rest, true)
  | none => (text, false)

/-- The text without the mark in front of a parameter. -/
def dropOpener (m : Markers) (text : List Char) : List Char :=
  match withoutStart? m.opener.toList text with
  | some rest => rest
  | none => (withoutStart? m.textOpener.toList text).getD text

/-- The text from its last blank on, the blank included; all of it if it has none. -/
def fromLastBlank (text : List Char) : List Char :=
  let tail := Chars.afterLast Chars.isBlank text
  text.drop (text.length - tail.length - 1)

/-- The names of a path. A separator at the end is followed by an empty name. -/
def names (separator text : List Char) : List (List Char) :=
  let closed := if separator.isSuffixOf text then text ++ [' '] else text
  ((Chars.splitOn separator closed).filter fun piece => !piece.isEmpty).map Chars.trim

end TypedPath

/-- The path at the end of a text, if there is one. -/
def tokenize? (m : Markers) (raw : String) : Option TypedPath :=
  let (text, afterPlaceholder) := TypedPath.dropPlaceholder m raw.toList
  let (text, afterCloser) := TypedPath.dropCloser m text
  let text := TypedPath.fromLastBlank (TypedPath.dropOpener m text)
  match TypedPath.names m.separator.toList text with
  | [] => none
  | segments => some ⟨segments.map String.ofList, afterPlaceholder || afterCloser⟩

end SqlMapper

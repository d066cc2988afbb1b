import SqlMapper.LineIndex

/-!
# Texts with a caret

A sample text shows the place of a caret by a marker. Taking the marker out gives the text and the
place.

## Main definitions

* `Sample.marker`: the marker.
* `Sample.extractCaret`: the text and the place of the caret.
-/

namespace SqlMapper.Sample

/-- What marks the place of a caret. -/
def marker : String := "$0"

/-- A text and the place of a caret in it. -/
structure CaretText where
  source : String
  position : Position
  offset : Nat
  deriving Repr, DecidableEq

/-- A text that does not have exactly one marker, with the number that it has. -/
structure MarkerCount where
  count : Nat
  deriving Repr, DecidableEq

/-- What people are told about such a text. -/
def MarkerCount.message (e : MarkerCount) : String :=
  "extract_cursor: input must contain exactly one '" ++ marker ++ "' marker, found " ++
    toString e.count

/-- The number of markers in a text. -/
def countMarkers (text : String) : Nat :=
  (Text.splitOn marker text).length - 1

/-- The position behind a text. -/
def positionAfter (before : List Char) : Position :=
  let line := before.count '\n'
  let character := Chars.byteLength (Chars.afterLast (· == '\n') before)
  ⟨min line LineIndex.maxCoordinate, min character LineIndex.maxCoordinate⟩

/-- The text without its only marker, and the place of the marker. -/
def extractCaret (input : String) : Except MarkerCount CaretText :=
  match Text.splitOn marker input with
  | [before, after] =>
    .ok ⟨before ++ after, positionAfter before.toList, Text.byteLength before⟩
  | _ => .error ⟨countMarkers input⟩

end SqlMapper.Sample

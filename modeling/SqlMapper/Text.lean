import SqlMapper.Chars.Blank
import SqlMapper.Chars.Cut
import SqlMapper.Chars.Bytes

/-!
# Text

The operations on character lists, for strings. Names, uris and file contents are strings;
every operation on them is defined on their list of characters.

## Main definitions

* `Text.trim`, `Text.isBlank`: outer blanks.
* `Text.startsWith`, `Text.endsWith`, `Text.contains`: occurrences of a text in another.
* `Text.splitOn`, `Text.join`: pieces and separators.
* `Text.byteLength`: the length in bytes.
-/

namespace SqlMapper.Text

/-- The text without the blanks at both ends. -/
def trim (s : String) : String :=
  String.ofList (Chars.trim s.toList)

/-- Whether the text has no character that is not blank. -/
def isBlank (s : String) : Bool :=
  Chars.isBlankText s.toList

/-- Whether `s` begins with `start`. -/
def startsWith (s start : String) : Bool :=
  start.toList.isPrefixOf s.toList

/-- Whether `s` ends with `ending`. -/
def endsWith (s ending : String) : Bool :=
  ending.toList.isSuffixOf s.toList

/-- Whether `part` occurs in `s`. -/
def contains (s part : String) : Bool :=
  Chars.occursIn part.toList s.toList

/-- `s` without `start` in front of it, if it begins so. -/
def stripStart? (s start : String) : Option String :=
  (start.toList.isPrefixOf? s.toList).map String.ofList

/-- The pieces of `s` between the occurrences of `sep`. -/
def splitOn (sep s : String) : List String :=
  (Chars.splitOn sep.toList s.toList).map String.ofList

/-- The pieces with `sep` between any two of them. -/
def join (sep : String) : List String → String
  | [] => ""
  | [p] => p
  | p :: q :: ps => p ++ sep ++ join sep (q :: ps)

/-- The number of bytes of the text. -/
def byteLength (s : String) : Nat :=
  Chars.byteLength s.toList

/-- The order of texts by their characters, which is also the order of their bytes. -/
def le (s t : String) : Bool :=
  !t.toList.lex s.toList fun a b => a.val < b.val

@[simp]
theorem toList_trim (s : String) : (trim s).toList = Chars.trim s.toList :=
  String.toList_ofList

end SqlMapper.Text

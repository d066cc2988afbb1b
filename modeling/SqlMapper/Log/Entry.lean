import SqlMapper.Chars.Word
import SqlMapper.Log.Literal

/-!
# Logged parameters

A log shows the parameters of a statement on one line, each as its value with its type in
parentheses. An entry is read from its first word boundary on, as far as its last opening
parenthesis that a type follows. A value that holds the separator of entries cannot be told from
two entries.

## Main definitions

* `Log.entries`: the entries on a line.
* `Log.typedValue?`: the value and the type in an entry.
* `Log.literal`: the literal that an entry stands for.
-/

namespace SqlMapper.Log

/-- What stands in front of the parameters on a line of a log. -/
def marker : String := "Parameters:"

/-- What stands between two entries. -/
def separator : String := ", "

/-- Whether a character ends a line. -/
def isLineEnd (c : Char) : Bool :=
  c == '\r' || c == '\n'

/-- The entries on a line of a log, whether or not the marker stands in front of them. -/
def entries (line : String) : List String :=
  let line := match Chars.breakAt? marker.toList line.toList with
    | some (_, behind) => behind
    | none => line.toList
  let line := Chars.dropEndWhile isLineEnd (Chars.trimStart line)
  if line.isEmpty then [] else (Chars.splitOn separator.toList line).map String.ofList

/-- The type behind an opening parenthesis: everything up to the last closing parenthesis before
the next blank. It is not empty. -/
def typeName? (cs : List Char) : Option (List Char) :=
  (Chars.beforeLast? (· == ')') (cs.takeWhile fun c => !Chars.isBlank c)).filter
    fun name => !name.isEmpty

/-- The value at the start of a text and the type behind it. The value is the longest one that a
type follows on the same line. -/
def valueAndType? : List Char → Option (List Char × List Char)
  | [] => none
  | c :: cs =>
    if c = '\n' then none
    else
      match valueAndType? cs with
      | some (value, name) => some (c :: value, name)
      | none => if c = '(' then (typeName? cs).map fun name => ([], name) else none

/-- The first value with a type in a text. It starts where a word starts or ends; `inWord` says
whether the character before the text belongs to a word. -/
def findTyped? : Bool → List Char → Option (List Char × List Char)
  | _, [] => none
  | inWord, c :: cs =>
    let here := if Chars.isWord c != inWord then valueAndType? (c :: cs) else none
    match here with
    | some found => some found
    | none => findTyped? (Chars.isWord c) cs

/-- The value and the type in an entry. -/
def typedValue? (entry : String) : Option (String × String) :=
  (findTyped? false entry.toList).map fun found =>
    (String.ofList found.1, String.ofList found.2)

/-- The types whose values are written as integers. -/
def integerTypes : List String :=
  ["Integer", "Long", "Short", "Byte"]

/-- The natural number that digits stand for. -/
def digits? (cs : List Char) : Option Nat :=
  if cs.isEmpty || !cs.all Char.isDigit then none
  else some (cs.foldl (fun n c => n * 10 + (c.toNat - '0'.toNat)) 0)

/-- The integer of 64 bits that a text stands for, with or without a sign. -/
def integer? (cs : List Char) : Option Int :=
  let n : Option Int := match cs with
    | '-' :: ds => (digits? ds).map fun n => -(n : Int)
    | '+' :: ds => (digits? ds).map fun n => (n : Int)
    | ds => (digits? ds).map fun n => (n : Int)
  n.filter fun n => -(Nat.pow 2 63 : Int) ≤ n && n < (Nat.pow 2 63 : Int)

/-- The literal for a value of a type. An integer that cannot be read stays as it stands. -/
def literalOf (value typeName : String) : Literal :=
  if integerTypes.contains typeName then
    match integer? (Chars.trim value.toList) with
    | some n => .integer n
    | none => .raw value
  else .text value

/-- The literal that an entry stands for. An entry without a type stays as it stands. -/
def literal (entry : String) : Literal :=
  match typedValue? entry with
  | some (value, typeName) => literalOf value typeName
  | none => .raw (Text.trim entry)

/-- The literals that entries stand for. -/
def literals (entries : List String) : List Literal :=
  entries.map literal

end SqlMapper.Log

import SqlMapper.Json.Value
import SqlMapper.Text

/-!
# Reading JSON

The grammar of JSON texts: one value between spaces, tabs and line breaks. Control characters in
strings, leading zeros, comments and trailing commas are not accepted.

## Main definitions

* `Json.parse?`: the value of a text.
-/

namespace SqlMapper.Json

/-- The characters that may stand between the parts of a text. -/
def isSpace (c : Char) : Bool :=
  c == ' ' || c == '\n' || c == '\t' || c == '\r'

/-- The text without the spaces in front. -/
def skipSpaces (cs : List Char) : List Char :=
  cs.dropWhile isSpace

/-- The value of a hexadecimal digit. -/
def hexDigit? (c : Char) : Option Nat :=
  if c.isDigit then some (c.toNat - '0'.toNat)
  else if 'a' ≤ c && c ≤ 'f' then some (c.toNat - 'a'.toNat + 10)
  else if 'A' ≤ c && c ≤ 'F' then some (c.toNat - 'A'.toNat + 10)
  else none

/-- The number that four hexadecimal digits stand for, and the text behind them. -/
def hexQuad? : List Char → Option (Nat × List Char)
  | a :: b :: c :: d :: rest => do
    let a ← hexDigit? a
    let b ← hexDigit? b
    let c ← hexDigit? c
    let d ← hexDigit? d
    some (((a * 16 + b) * 16 + c) * 16 + d, rest)
  | _ => none

/-- The character that a backslash and a letter stand for. -/
def simpleEscape? : Char → Option Char
  | '"' => some '"'
  | '\\' => some '\\'
  | '/' => some '/'
  | 'b' => some '\x08'
  | 'f' => some '\x0c'
  | 'n' => some '\n'
  | 'r' => some '\r'
  | 't' => some '\t'
  | _ => none

/-- The units of 16 bits and the characters that the inside of a string is made of, up to the
closing quote, and the text behind it. -/
def stringUnits? : Nat → List Char → Option (List (Nat ⊕ Char) × List Char)
  | 0, _ => none
  | _, [] => none
  | _, '"' :: rest => some ([], rest)
  | fuel + 1, '\\' :: 'u' :: rest => do
    let (unit, rest) ← hexQuad? rest
    let (units, rest) ← stringUnits? fuel rest
    some (.inl unit :: units, rest)
  | fuel + 1, '\\' :: e :: rest => do
    let c ← simpleEscape? e
    let (units, rest) ← stringUnits? fuel rest
    some (.inr c :: units, rest)
  | fuel + 1, c :: rest =>
    if c.toNat < 0x20 || c == '\\' then none
    else do
      let (units, rest) ← stringUnits? fuel rest
      some (.inr c :: units, rest)

/-- The text that units and characters stand for. Two units may make up a surrogate pair; half of
one stands for nothing. -/
def textOfUnits? : List (Nat ⊕ Char) → Option (List Char)
  | [] => some []
  | .inr c :: rest => (textOfUnits? rest).map (c :: ·)
  | .inl hi :: .inl lo :: rest =>
    if 0xD800 ≤ hi && hi ≤ 0xDBFF then
      if 0xDC00 ≤ lo && lo ≤ 0xDFFF then
        (textOfUnits? rest).map
          (Char.ofNat (0x10000 + (hi - 0xD800) * 0x400 + (lo - 0xDC00)) :: ·)
      else none
    else if 0xDC00 ≤ hi && hi ≤ 0xDFFF then none
    else (textOfUnits? (.inl lo :: rest)).map (Char.ofNat hi :: ·)
  | .inl unit :: rest =>
    if 0xD800 ≤ unit && unit ≤ 0xDFFF then none
    else (textOfUnits? rest).map (Char.ofNat unit :: ·)

/-- The string whose opening quote has been read, and the text behind it. -/
def stringRest? (cs : List Char) : Option (Option String × List Char) := do
  let (units, rest) ← stringUnits? (cs.length + 1) cs
  some ((textOfUnits? units).map String.ofList, rest)

/-- One or more digits in front of a text, and the text behind them. -/
def readDigits? (cs : List Char) : Option (List Char × List Char) :=
  let ds := cs.takeWhile Char.isDigit
  if ds.isEmpty then none else some (ds, cs.dropWhile Char.isDigit)

/-- The number in front of a text, and the text behind it. -/
def readNumber? (cs : List Char) : Option (Json × List Char) := do
  let (sign, cs) := match cs with
    | '-' :: rest => (['-'], rest)
    | _ => ([], cs)
  let (whole, cs) ← match cs with
    | '0' :: d :: rest => if d.isDigit then none else some (['0'], d :: rest)
    | _ => readDigits? cs
  let (fraction, cs) ← match cs with
    | '.' :: rest => (readDigits? rest).map fun p => ('.' :: p.1, p.2)
    | _ => some ([], cs)
  let (exponent, cs) ← match cs with
    | e :: rest =>
      if e == 'e' || e == 'E' then
        match rest with
        | s :: more =>
          if s == '+' || s == '-' then (readDigits? more).map fun p => (e :: s :: p.1, p.2)
          else (readDigits? rest).map fun p => (e :: p.1, p.2)
        | [] => none
      else some ([], cs)
    | [] => some ([], cs)
  some (.number (String.ofList (sign ++ whole ++ fraction ++ exponent)), cs)

/-- The word `null`, `true` or `false` in front of a text, and the text behind it. -/
def readWord? (cs : List Char) : Option (Json × List Char) :=
  [("null", null), ("true", bool true), ("false", bool false)].findSome? fun w =>
    (w.1.toList.isPrefixOf? cs).map fun rest => (w.2, rest)

mutual

/-- The value in front of a text, and the text behind it. -/
def readValue? : Nat → List Char → Option (Json × List Char)
  | 0, _ => none
  | fuel + 1, cs =>
    match skipSpaces cs with
    | '"' :: rest => (stringRest? rest).map fun p => (.string p.1, p.2)
    | '[' :: rest =>
      match skipSpaces rest with
      | ']' :: rest => some (.array [], rest)
      | _ => (readItems? fuel rest).map fun p => (.array p.1, p.2)
    | '\x7b' :: rest =>
      match skipSpaces rest with
      | '\x7d' :: rest => some (.object [], rest)
      | _ => (readMembers? fuel rest).map fun p => (.object p.1, p.2)
    | c :: rest => if c == '-' || c.isDigit then readNumber? (c :: rest) else readWord? (c :: rest)
    | [] => none

/-- The items of an array up to its closing bracket, and the text behind it. -/
def readItems? : Nat → List Char → Option (List Json × List Char)
  | 0, _ => none
  | fuel + 1, cs => do
    let (item, rest) ← readValue? fuel cs
    match skipSpaces rest with
    | ',' :: rest => (readItems? fuel rest).map fun p => (item :: p.1, p.2)
    | ']' :: rest => some ([item], rest)
    | _ => none

/-- The members of an object up to its closing brace, and the text behind it. -/
def readMembers? : Nat → List Char → Option (List (Option String × Json) × List Char)
  | 0, _ => none
  | fuel + 1, cs =>
    match skipSpaces cs with
    | '"' :: rest => do
      let (name, rest) ← stringRest? rest
      let ':' :: rest := skipSpaces rest | none
      let (item, rest) ← readValue? fuel rest
      match skipSpaces rest with
      | ',' :: rest => (readMembers? fuel rest).map fun p => ((name, item) :: p.1, p.2)
      | '\x7d' :: rest => some ([(name, item)], rest)
      | _ => none
    | _ => none

end

/-- The value of a JSON text; `none` if the text is not one. -/
def parse? (text : String) : Option Json := do
  let cs := text.toList
  let (value, rest) ← readValue? (2 * cs.length + 2) cs
  if (skipSpaces rest).isEmpty then some value else none

end SqlMapper.Json

import SqlMapper.Markup.Cursor

/-!
# References and entities

A reference in a document stands for a character or for the text of an entity declared in its
document type. The text of an entity may hold references again, up to a fixed depth and number,
so every expansion is finite.

## Main definitions

* `Entity`: a declared entity, with the place of its text.
* `reference?`: the reference at the start of a text.
* `attributeValue`: the value that the text between two quotes stands for.
-/

namespace SqlMapper.Markup

/-- A declared entity and its text, with the offset at which the text stands in the document. -/
structure Entity where
  name : List Char
  text : Cursor
  deriving Repr, DecidableEq

/-- What a reference stands for. -/
inductive Reference where
  | character (c : Char)
  | entity (name : List Char)
  deriving Repr, DecidableEq

/-- How deeply entities may be nested. -/
def maxNesting : Nat := 10

/-- How many references may occur inside the expansion of one. -/
def maxNestedReferences : Nat := 255

/-- The value of a hexadecimal digit, letters of either case included. -/
def hexDigit? (c : Char) : Option Nat :=
  if c.isDigit then some (c.toNat - '0'.toNat)
  else if 'a' ≤ c && c ≤ 'f' then some (c.toNat - 'a'.toNat + 10)
  else if 'A' ≤ c && c ≤ 'F' then some (c.toNat - 'A'.toNat + 10)
  else none

/-- The number that digits of a base stand for. -/
def numberOf (base : Nat) (digits : List Char) : Nat :=
  digits.foldl (fun n d => n * base + (hexDigit? d).getD 0) 0

/-- The character with this number. Numbers of 32 bits that belong to no character give the
replacement character. -/
def characterOf? (n : Nat) : Option Char :=
  if n ≥ 4294967296 then none
  else
    let c := if n.isValidChar then Char.ofNat n else Char.ofNat 0xFFFD
    if isAllowed c then some c else none

/-- The reference that a name stands for. -/
def namedReference (name : List Char) : Reference :=
  if name = "quot".toList then .character '"'
  else if name = "amp".toList then .character '&'
  else if name = "apos".toList then .character '\''
  else if name = "lt".toList then .character '<'
  else if name = "gt".toList then .character '>'
  else .entity name

/-- The reference that begins behind an ampersand, and the text behind its semicolon. -/
def reference? (cs : List Char) : Option (Reference × List Char) := do
  let numeric (base : Nat) (isDigit : Char → Bool) (cs : List Char) :
      Option (Reference × List Char) := do
    let digits := cs.takeWhile isDigit
    if digits.isEmpty then none
    let c ← characterOf? (numberOf base digits)
    some (.character c, cs.dropWhile isDigit)
  let (reference, rest) ←
    match cs with
    | '#' :: 'x' :: ds => numeric 16 (fun d => (hexDigit? d).isSome) ds
    | '#' :: ds => numeric 10 Char.isDigit ds
    | _ =>
      match cs with
      | x :: _ =>
        if isNameStart x then
          some (namedReference (cs.takeWhile isNameChar), cs.dropWhile isNameChar)
        else none
      | [] => none
  match rest with
  | ';' :: rest => some (reference, rest)
  | _ => none

/-- The first entity declared with this name. -/
def findEntity (entities : List Entity) (name : List Char) : Except Fault Entity :=
  match entities.find? fun e => e.name == name with
  | some e => .ok e
  | none => .error .unknownEntity

/-- The number of nested references after one more; those outside every entity do not count. -/
def countReference (nested : Bool) (used : Nat) : Except Fault Nat :=
  if !nested then .ok used
  else if used ≥ maxNestedReferences then .error .entityLoop
  else .ok (used + 1)

/-- The value of a text, given the values of entities inside it. Line breaks and tabs become
spaces, a carriage return before a line feed disappears, and so do those that references inside
an entity stand for. -/
def valueWith (entities : List Entity) (nested : Bool)
    (inner : List Char → Nat → Except Fault (List Char × Nat)) :
    Nat → List Char → Nat → Except Fault (List Char × Nat)
  | 0, _, used => .ok ([], used)
  | _, [], used => .ok ([], used)
  | fuel + 1, '&' :: cs, used => do
    let some (reference, rest) := reference? cs | .error .malformedReference
    match reference with
    | .character c =>
      if nested && c == '<' then .error .markupInValue
      let shown := if nested && isSpace c then ' ' else c
      let (value, used) ← valueWith entities nested inner fuel rest used
      .ok (shown :: value, used)
    | .entity name =>
      let e ← findEntity entities name
      let used ← countReference nested used
      let (front, used) ← inner e.text.rest used
      let used := if nested then used else 0
      let (value, used) ← valueWith entities nested inner fuel rest used
      .ok (front ++ value, used)
  | fuel + 1, '\r' :: '\n' :: cs, used => do
    let (value, used) ← valueWith entities nested inner fuel cs used
    .ok (' ' :: value, used)
  | fuel + 1, c :: cs, used => do
    let (value, used) ← valueWith entities nested inner fuel cs used
    .ok ((if isSpace c then ' ' else c) :: value, used)

/-- The value of a text at a nesting depth that leaves `level` further levels, and the number of
nested references used so far. -/
def valueAt (entities : List Entity) : Nat → List Char → Nat → Except Fault (List Char × Nat)
  | 0, cs, used =>
    valueWith entities true (fun _ _ => .error .entityLoop) (cs.length + 1) cs used
  | level + 1, cs, used =>
    valueWith entities (level + 1 < maxNesting) (valueAt entities level) (cs.length + 1) cs used

end SqlMapper.Markup

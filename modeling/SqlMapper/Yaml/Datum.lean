import SqlMapper.Yaml.Parser
import SqlMapper.Datum

/-!
# YAML as structured data

A scalar is a text wherever a text is wanted. Where a text is only one of several possibilities, a
plain scalar that reads as nothing, a truth value or a number is not a text. Where nothing is
written, there is also an empty list and an empty record.

## Main definitions

* `Plain.isText`: whether a plain scalar can only be a text.
* `Plain.natural?`: the natural number that a plain scalar stands for.
-/

namespace SqlMapper.Yaml

namespace Plain

/-- The words for nothing. -/
def isNull (s : String) : Bool :=
  s == "null" || s == "Null" || s == "NULL" || s == "~"

/-- The words for truth values. -/
def isBool (s : String) : Bool :=
  ["true", "True", "TRUE", "false", "False", "FALSE"].contains s

/-- The number that digits of a base stand for; none if there are none or others among them. -/
def digits? (base : Nat) (cs : List Char) : Option Nat :=
  if cs.isEmpty then none
  else cs.foldlM (fun n c => (Scalar.hexDigit? c).bind fun d =>
    if d < base then some (n * base + d) else none) 0

/-- Whether the digits begin with a zero that is not all of them. -/
def hasLeadingZero (cs : List Char) : Bool :=
  match cs with
  | '0' :: d :: ds => (d :: ds).all Char.isDigit
  | _ => false

/-- The text behind a sign, if there is one. -/
def unsigned (cs : List Char) : List Char :=
  match cs with
  | '-' :: rest | '+' :: rest => rest
  | _ => cs

/-- The natural number that digits stand for, in base sixteen, eight or two behind the mark of
that base, and in base ten without one. -/
def magnitude? (cs : List Char) : Option Nat :=
  let marked := match cs with
    | '0' :: 'x' :: ds => digits? 16 ds
    | '0' :: 'o' :: ds => digits? 8 ds
    | '0' :: 'b' :: ds => digits? 2 ds
    | _ => none
  match marked with
  | some n => some n
  | none => if hasLeadingZero cs then none else digits? 10 cs

/-- The natural number below 2⁶⁴ that a scalar stands for, behind a plus sign if there is one. -/
def natural? (s : String) : Option Nat :=
  let cs := match s.toList with
    | '+' :: rest => rest
    | cs => cs
  (magnitude? cs).filter (· < Nat.pow 2 64)

/-- Whether the scalar is an integer of at most 128 bits. -/
def isInteger (s : String) : Bool :=
  match s.toList with
  | '-' :: cs => (magnitude? cs).any (· ≤ Nat.pow 2 127)
  | '+' :: cs => (magnitude? cs).any (· < Nat.pow 2 128)
  | cs => (magnitude? cs).any (· < Nat.pow 2 128)

/-- The digits, the number of them behind the point and the exponent of a decimal number. -/
def decimal? (cs : List Char) : Option (List Char × Nat × Int) := do
  let whole := cs.takeWhile Char.isDigit
  let cs := cs.dropWhile Char.isDigit
  let (fraction, cs) := match cs with
    | '.' :: rest => (rest.takeWhile Char.isDigit, rest.dropWhile Char.isDigit)
    | _ => ([], cs)
  if whole.isEmpty && fraction.isEmpty then none
  match cs with
  | [] => some (whole ++ fraction, fraction.length, 0)
  | e :: rest =>
    if e != 'e' && e != 'E' then none
    let n ← digits? 10 (unsigned rest)
    some (whole ++ fraction, fraction.length, if rest.head? == some '-' then -(n : Int) else n)

/-- Whether a decimal number is too large for a binary one of 64 bits, whose values end where the
next power of two would begin. -/
def overflows (digits : List Char) (places : Nat) (exponent : Int) : Bool :=
  let significant := digits.dropWhile (· == '0')
  let scale := exponent - places
  let magnitude := (significant.length : Int) + scale
  if significant.isEmpty || magnitude < 300 then false
  else if magnitude > 320 then true
  else
    let n := (digits? 10 significant).getD 0
    let limit := Nat.pow 2 1024 - Nat.pow 2 970
    if scale ≥ 0 then n * Nat.pow 10 scale.toNat ≥ limit
    else n ≥ limit * Nat.pow 10 (-scale).toNat

/-- Whether the scalar is a number with a point or an exponent, or a word for one. -/
def isFloat (s : String) : Bool :=
  let number := match s.toList with
    | '+' :: cs =>
      if cs.head? == some '+' || cs.head? == some '-' then none else decimal? cs
    | cs => decimal? (unsigned cs)
  [".inf", ".Inf", ".INF", "+.inf", "+.Inf", "+.INF", "-.inf", "-.Inf", "-.INF",
    ".nan", ".NaN", ".NAN"].contains s ||
    (match number with
    | some (digits, places, exponent) => !overflows digits places exponent
    | none => false)

/-- Whether a plain scalar can only be a text. -/
def isText (s : String) : Bool :=
  s ≠ "" && !isNull s && !isBool s && !isInteger s &&
    (hasLeadingZero (unsigned s.toList) || !isFloat s)

end Plain

namespace Node

/-- The tag of texts among those every document knows. -/
def knownTag (name : String) : String :=
  "tag:yaml.org,2002:" ++ name

/-- The text of a scalar. -/
def text? : Node → Option String
  | .scalar text _ _ => some text
  | _ => none

/-- The text of a scalar that can only be a text. Tags for other kinds, and tags of a document's
own, are no texts. -/
def properText? : Node → Option String
  | .scalar text plain none => if !plain || Plain.isText text then some text else none
  | .scalar text _ (some tag) =>
    if Text.startsWith tag "!" || [knownTag "bool", knownTag "int", knownTag "float",
      knownTag "null"].contains tag then none else some text
  | _ => none

/-- The natural number of a plain scalar. -/
def natural? : Node → Option Nat
  | .scalar text true _ => Plain.natural? text
  | _ => none

/-- The items of a sequence; none where nothing is written. -/
def items? : Node → Option (List Node)
  | .sequence items _ => some items
  | .scalar "" true _ => some []
  | _ => none

/-- The items of a sequence that can only be one: its tag is not one of a document's own. -/
def properItems? : Node → Option (List Node)
  | .sequence items tag => if tag.any (Text.startsWith · "!") then none else some items
  | _ => none

/-- The entries of a mapping, whose keys are texts; none where nothing is written. -/
def fields? : Node → Option (List (String × Node))
  | .mapping entries _ => entries.mapM fun e => (text? e.1).map fun name => (name, e.2)
  | .scalar "" true _ => some []
  | _ => none

/-- Whether a plain scalar says that there is nothing, or nothing is written. -/
def isNothing : Node → Bool
  | .scalar text true none => text == "" || Plain.isNull text
  | .scalar text true (some tag) => tag == knownTag "null" && Plain.isNull text
  | _ => false

instance : Datum Node where
  text? := text?
  properText? := properText?
  natural? := natural?
  items? := items?
  properItems? := properItems?
  fields? := fun _ => fields?
  isNothing := isNothing

end Node

end SqlMapper.Yaml

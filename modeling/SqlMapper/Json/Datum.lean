import SqlMapper.Json.Parser
import SqlMapper.Datum

/-!
# JSON as structured data

A record is an object, or an array of its fields in their order. Only `null` says that there is
nothing, and only a whole number written in digits is a natural number.
-/

namespace SqlMapper.Json

/-- The text of a string. -/
def text? : Json → Option String
  | .string text => text
  | _ => none

/-- The natural number below 2⁶⁴ that a number written in digits stands for. -/
def natural? : Json → Option Nat
  | .number text =>
    if text.toList.all Char.isDigit then
      let n := text.toList.foldl (fun n d => n * 10 + (d.toNat - '0'.toNat)) 0
      if n < Nat.pow 2 64 then some n else none
    else none
  | _ => none

/-- The items of an array. -/
def items? : Json → Option (List Json)
  | .array items => some items
  | _ => none

/-- The members of an object, or the items of an array under the given names. -/
def fields? (names : List String) : Json → Option (List (String × Json))
  | .object members => members.mapM fun m => m.1.map fun name => (name, m.2)
  | .array items => if items.length ≤ names.length then some (names.zip items) else none
  | _ => none

/-- Whether the value is `null`. -/
def isNull : Json → Bool
  | .null => true
  | _ => false

instance : Datum Json where
  text? := text?
  properText? := text?
  natural? := natural?
  items? := items?
  properItems? := items?
  fields? := fields?
  isNothing := isNull

end SqlMapper.Json

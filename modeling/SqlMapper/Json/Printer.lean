import SqlMapper.Json.Value
import SqlMapper.Text

/-!
# Writing JSON

The indented form of a value: two blanks for each level, one item or member a line. Of the
characters in strings only quotes, backslashes and control characters are escaped.

## Main definitions

* `Json.pretty`: the indented form of a value.
-/

namespace SqlMapper.Json

/-- The hexadecimal digit with this value. -/
def hexDigit (n : Nat) : Char :=
  if n < 10 then Char.ofNat ('0'.toNat + n) else Char.ofNat ('a'.toNat + n - 10)

/-- The written form of a character in a string. -/
def escape (c : Char) : List Char :=
  if c == '"' then ['\\', '"']
  else if c == '\\' then ['\\', '\\']
  else if c == '\n' then ['\\', 'n']
  else if c == '\r' then ['\\', 'r']
  else if c == '\t' then ['\\', 't']
  else if c == '\x08' then ['\\', 'b']
  else if c == '\x0c' then ['\\', 'f']
  else if c.toNat < 0x20 then ['\\', 'u', '0', '0', hexDigit (c.toNat / 16), hexDigit (c.toNat % 16)]
  else [c]

/-- The written form of a text. -/
def quote (text : String) : String :=
  String.ofList ('"' :: text.toList.flatMap escape ++ ['"'])

/-- The start of a line at a level. -/
def indentation (level : Nat) : String :=
  String.ofList (List.replicate (2 * level) ' ')

/-- Lines between brackets, with a comma behind each but the last. -/
def bracket (opening closing : String) (level : Nat) (lines : List String) : String :=
  if lines.isEmpty then opening ++ closing
  else
    let inner := indentation (level + 1)
    opening ++ "\n" ++ Text.join ",\n" (lines.map (inner ++ ·)) ++ "\n" ++ indentation level ++
      closing

mutual

/-- The indented form of a value that starts on a line at a level. -/
def prettyAt (level : Nat) : Json → String
  | .null => "null"
  | .bool true => "true"
  | .bool false => "false"
  | .number text => text
  | .string text => quote (text.getD "")
  | .array items => bracket "[" "]" level (prettyItems (level + 1) items)
  | .object members => bracket "\x7b" "\x7d" level (prettyMembers (level + 1) members)

/-- The indented forms of items. -/
def prettyItems (level : Nat) : List Json → List String
  | [] => []
  | item :: items => prettyAt level item :: prettyItems level items

/-- The indented forms of members. -/
def prettyMembers (level : Nat) : List (Option String × Json) → List String
  | [] => []
  | (name, item) :: members =>
    (quote (name.getD "") ++ ": " ++ prettyAt level item) :: prettyMembers level members

end

/-- The indented form of a value. -/
def pretty (value : Json) : String :=
  prettyAt 0 value

end SqlMapper.Json

/-!
# JSON values

A JSON value as written. Numbers keep their text, objects keep the order of their members and
repeated names. A string whose escapes do not denote text, such as half of a surrogate pair, is
well-formed and has no text.
-/

namespace SqlMapper

/-- A JSON value. -/
inductive Json where
  | null
  | bool (value : Bool)
  | number (text : String)
  | string (text : Option String)
  | array (items : List Json)
  | object (members : List (Option String × Json))
  deriving Repr

namespace Json

/-- The string with this text. -/
def ofText (text : String) : Json :=
  string (some text)

/-- The number written as a natural number is. -/
def ofNat (n : Nat) : Json :=
  number (toString n)

/-- The object with these members. -/
def ofMembers (members : List (String × Json)) : Json :=
  object (members.map fun m => (some m.1, m.2))

end Json

end SqlMapper

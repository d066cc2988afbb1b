import SqlMapper.Text

/-!
# Literals

Values as they are written in a statement.

## Main definitions

* `Literal`: a value.
* `Literal.render`: its written form.
-/

namespace SqlMapper

/-- A value in a statement. -/
inductive Literal where
  | integer (value : Int)
  | text (value : String)
  /-- A value of unknown type, written as it stands. -/
  | raw (value : String)
  deriving Repr, DecidableEq

namespace Literal

/-- The text with every quote written twice. -/
def doubleQuotes (cs : List Char) : List Char :=
  cs.flatMap fun c => if c == '\'' then ['\'', '\''] else [c]

/-- The characters of the written form of a literal: a text stands between quotes. -/
def chars : Literal → List Char
  | integer value => (toString value).toList
  | text value => '\'' :: doubleQuotes value.toList ++ ['\'']
  | raw value => value.toList

/-- The written form of a literal. -/
def render (l : Literal) : String :=
  String.ofList l.chars

end Literal

end SqlMapper

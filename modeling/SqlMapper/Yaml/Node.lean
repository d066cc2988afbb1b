/-!
# Nodes

The content of a YAML document. A reference to an anchor is replaced by what the anchor stands
for; inside the anchored node itself there is nothing yet to replace it by.
-/

namespace SqlMapper.Yaml

/-- A node of a document, with its tag if one is written. -/
inductive Node where
  /-- A text; `plain` if it is written without quotes or other marks. -/
  | scalar (text : String) (plain : Bool) (tag : Option String)
  | sequence (items : List Node) (tag : Option String)
  | mapping (entries : List (Node × Node)) (tag : Option String)
  /-- A reference from inside the anchored node to itself. -/
  | recursion
  deriving Repr

/-- The node that stands where nothing is written. -/
def Node.empty : Node :=
  .scalar "" true none

end SqlMapper.Yaml

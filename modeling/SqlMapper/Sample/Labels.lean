import SqlMapper.Text

/-!
# Lists of labels

The labels of a completion list as one text, a label a line.
-/

namespace SqlMapper.Sample

/-- The labels, one a line. -/
def renderLabels (labels : List String) : String :=
  if labels.isEmpty then "(no completions)" else Text.join "\n" labels

end SqlMapper.Sample

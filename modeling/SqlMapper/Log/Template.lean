import SqlMapper.Log.Literal

/-!
# Statement templates

A logged statement has a question mark for each parameter. Putting the values back gives a statement
that can be run. Question marks between quotes are no parameters.

## Main definitions

* `Template.substitute`: values put in for question marks.
* `Template.fill`: the statement of a template and its values.
-/

namespace SqlMapper.Template

/-- Whether a character opens a quoted part of a statement. -/
def isQuote (c : Char) : Bool :=
  c == '\'' || c == '"'

/-- The template with values put in for the question marks outside quotes, in order. `quote` is the
quote that is open. Question marks without a value stay. -/
def substitute : Option Char → List Literal → List Char → List Char
  | _, _, [] => []
  | some quote, values, c :: cs =>
    c :: substitute (if c == quote then none else some quote) values cs
  | none, values, c :: cs =>
    if isQuote c then c :: substitute (some c) values cs
    else
      match c, values with
      | '?', value :: values => value.chars ++ substitute none values cs
      | _, _ => c :: substitute none values cs

/-- The statement of a template and its values. A blank template, or no values, make no
statement. -/
def fill (template : String) (values : List Literal) : String :=
  if Text.isBlank template || values.isEmpty then ""
  else String.ofList (substitute none values template.toList)

end SqlMapper.Template

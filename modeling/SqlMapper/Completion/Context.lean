import SqlMapper.Document.Caret
import SqlMapper.Model.Parameters
import SqlMapper.Settings.Basic

/-!
# Context of a caret

What completion needs to know about the place of a caret: the statement around it, the text being
typed, and the parameters of the method that the statement belongs to.

## Main definitions

* `StatementContext`: the context of a caret.
* `StatementContext.ofDocument`: the context of an offset in a document.
-/

namespace SqlMapper

/-- What is known about the place of a caret. -/
structure StatementContext where
  language : Language
  /-- The id of the statement around the caret, if there is one. -/
  statementId : Option String := none
  /-- The text being typed. -/
  caretFragment : String := ""
  /-- The parameters of the method that the statement belongs to. -/
  parameters : List Parameter := []
  deriving Repr, DecidableEq

namespace StatementContext

/-- The context of which only the language is known. -/
def empty (language : Language) : StatementContext :=
  { language }

/-- Whether nothing can be completed. -/
def isEmpty (c : StatementContext) : Bool :=
  !c.language.completesParameters || c.parameters.isEmpty

/-- The method that a statement of a document belongs to. -/
def method? (types : TypeModel) (d : Document) (s : Statement) : Option MethodDecl := do
  types.mapperMethod? (← d.namespaceName) s.id

/-- The context of an offset in a document. -/
def ofDocument (types : TypeModel) (m : Markers) (d : Document) (offset : Nat) :
    StatementContext :=
  let fragment := (d.caretFragment? offset).getD ""
  match d.enclosingStatement? offset with
  | none => ⟨.xml, none, fragment, []⟩
  | some s =>
    let parameters := match method? types d s with
      | some method => method.declaredParameters m.annotationName
      | none => []
    ⟨.xml, some s.id, fragment, parameters⟩

end StatementContext

end SqlMapper

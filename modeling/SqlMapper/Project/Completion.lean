import SqlMapper.Completion.Context
import SqlMapper.Completion.Offer
import SqlMapper.Project.Basic

/-!
# Completion in a project

The names offered at a position of a file. Where nothing can be completed the list is empty; only
for files that the project does not have there is no list at all.

## Main definitions

* `Project.context`: the context of a position.
* `Project.completions?`: the names offered at a position.
-/

namespace SqlMapper.Project

/-- The context of a position in a file. -/
def context (p : Project) (uri : FileUri) (position : Position) : StatementContext :=
  let language := Language.ofUri uri
  if !language.completesParameters then StatementContext.empty language
  else
    let found := do
      let entry ← p.registry.get? uri
      let document ← entry.document
      let offset ← entry.lines.offset? position
      some (StatementContext.ofDocument p.types p.settings.markers document offset)
    found.getD (StatementContext.empty language)

/-- The names offered at a position of a file, as if an editor had put its placeholder there. -/
def completions? (p : Project) (uri : FileUri) (position : Position) : Option CompletionList :=
  if !p.registry.contains uri then none
  else
    let context := p.context uri position
    let markers := p.settings.markers
    if context.isEmpty then some CompletionList.empty
    else some (complete p.types.introspector markers context.parameters
      (context.caretFragment ++ markers.placeholder))

end SqlMapper.Project

import SqlMapper.Project.Loading

/-!
# Reachable registries and projects

What holds of a project after any run of changes. Of the parts of a project only the registry has
a history to speak of: whatever is done to a project, its registry has been made by adding and
removing files one by one.

## Main definitions

* `Registry.Reachable`, `Project.Reachable`: made by changes alone.
* `Registry.UpToDate`: what is known about a file is what its present text gives.

## Main statements

* `Registry.Reachable.upToDate`: reachable registries are up to date.
* `Project.Reachable.registry`: the registry of a reachable project is reachable.
-/

namespace SqlMapper

namespace Registry

/-- The registries that adding and removing files leads to. -/
inductive Reachable : Registry → Prop
  | empty : Reachable Registry.empty
  | add {r : Registry} (h : Reachable r) (uri : FileUri) (text : String) :
      Reachable (r.add uri text)
  | remove {r : Registry} (h : Reachable r) (uri : FileUri) : Reachable (r.remove uri)

/-- Every file stands under its own uri, with what its present text gives. -/
def UpToDate (r : Registry) : Prop :=
  ∀ uri entry, r.get? uri = some entry → entry = FileEntry.ofText entry.id uri entry.text

theorem upToDate_empty : Registry.empty.UpToDate := by
  intro uri entry h
  cases h

theorem UpToDate.add {r : Registry} (h : r.UpToDate) (uri : FileUri) (text : String) :
    (r.add uri text).UpToDate := by
  intro x entry hget
  rw [get?_add] at hget
  by_cases hx : x = uri
  · subst hx
    rw [if_pos rfl, Option.some.injEq] at hget
    rw [← hget]
    rfl
  · rw [if_neg hx] at hget
    exact h x entry hget

theorem UpToDate.remove {r : Registry} (h : r.UpToDate) (uri : FileUri) :
    (r.remove uri).UpToDate := by
  intro x entry hget
  rw [get?_remove] at hget
  by_cases hx : x = uri
  · rw [if_pos hx] at hget
    cases hget
  · rw [if_neg hx] at hget
    exact h x entry hget

/-- No run of changes leaves anything stale behind. -/
theorem Reachable.upToDate {r : Registry} (h : r.Reachable) : r.UpToDate := by
  induction h with
  | empty => exact upToDate_empty
  | add _ uri text ih => exact ih.add uri text
  | remove _ uri ih => exact ih.remove uri

/-- Files in a language without parameters have no document. -/
theorem UpToDate.document_eq_none {r : Registry} (h : r.UpToDate) {uri : FileUri}
    (huri : (Language.ofUri uri).completesParameters = false) {entry : FileEntry}
    (hget : r.get? uri = some entry) : entry.document = none := by
  rw [h uri entry hget]
  change FileEntry.document? uri entry.text = none
  unfold FileEntry.document?
  cases hlanguage : Language.ofUri uri with
  | xml => simp [hlanguage, Language.completesParameters] at huri
  | sql => rfl
  | other => rfl

/-- Adding several files one after the other keeps a registry reachable. -/
theorem Reachable.addAll {r : Registry} (h : r.Reachable) (files : List (FileUri × String)) :
    (files.foldl (fun r d => r.add d.1 d.2) r).Reachable := by
  induction files generalizing r with
  | nil => exact h
  | cons d files ih => exact ih (h.add d.1 d.2)

end Registry

namespace Project

/-- The projects that changes lead to, from a project without files and types under any settings.
Loading adopts what has been read; where it fails it changes nothing. -/
inductive Reachable : Project → Prop
  | start (settings : Settings) : Reachable (ofSettings settings)
  | addFile {p : Project} (h : Reachable p) (uri : FileUri) (text : String) :
      Reachable (p.addFile uri text)
  | removeFile {p : Project} (h : Reachable p) (uri : FileUri) : Reachable (p.removeFile uri)
  | setTypes {p : Project} (h : Reachable p) (types : TypeModel) : Reachable (p.setTypes types)
  | setSettings {p : Project} (h : Reachable p) (settings : Settings) :
      Reachable (p.setSettings settings)
  | adopt {p : Project} (h : Reachable p) (g : Gathered) : Reachable (p.adopt g)

/-- Every change of a project changes its registry by adding and removing files, or not at all. -/
theorem Reachable.registry {p : Project} (h : p.Reachable) : p.registry.Reachable := by
  induction h with
  | start settings => exact .empty
  | addFile _ uri text ih => exact ih.add uri text
  | removeFile _ uri ih => exact ih.remove uri
  | setTypes _ types ih => exact ih
  | setSettings _ settings ih => exact ih
  | adopt _ g ih => exact ih.addAll g.readable

end Project

end SqlMapper

import SqlMapper.Document.Resolution

/-!
# The documents that an id is looked up in

Resolving an id goes through a list of documents and takes the first one that defines it. The list
begins with the document itself, so its own result maps come before those of others. What happens
to resolution when documents come and go is therefore what happens to a first match in a list.

## Main definitions

* `Document.scope`: the documents that ids of a document are looked up in.
* `Document.Defines`: a document defines a result map of an id.

## Main statements

* `resolveResultMap?_eq_findSome?`: resolution is a first match in the scope.
* `exists_mem_scope_of_resolve`: a target is defined in the scope, under the id.
* `resolveResultMap?_append`: documents at the end only matter to ids that nothing else defines.
* `resolveResultMap?_filter`: documents other than the target can be left out.
-/

namespace SqlMapper

namespace Document

/-- The documents that ids of a document are looked up in, in order. -/
def scope (d : Document) (project : List Document) : List Document :=
  if d.isMapper then d :: project.filter d.sharesWith else []

theorem mem_scope {d other : Document} {project : List Document} :
    other ∈ d.scope project ↔
      d.isMapper = true ∧ (other = d ∨ other ∈ project ∧ d.sharesWith other = true) := by
  unfold scope
  split
  · next h => simp [h]
  · next h => simp [h]

/-- The document defines a result map with this id. -/
def Defines (d : Document) (id : String) : Prop :=
  ∃ m ∈ d.resultMaps, m.id = id

instance (d : Document) (id : String) : Decidable (d.Defines id) :=
  inferInstanceAs (Decidable (∃ m ∈ d.resultMaps, m.id = id))

theorem resultMap?_eq_none_iff {d : Document} {id : String} :
    d.resultMap? id = none ↔ ¬d.Defines id := by
  simp [resultMap?, Defines]

theorem target?_eq_some_iff {d : Document} {id : String} {t : ResultMapTarget} :
    d.target? id = some t ↔ t.document = d ∧ d.resultMap? id = some t.definition := by
  unfold target?
  rw [Option.map_eq_some_iff]
  constructor
  · rintro ⟨definition, hdefinition, rfl⟩
    exact ⟨rfl, hdefinition⟩
  · rintro ⟨rfl, hdefinition⟩
    exact ⟨t.definition, hdefinition, rfl⟩

end Document

variable {id : String} {d : Document} {project : List Document} {t : ResultMapTarget}

theorem resolveResultMap?_eq_findSome? (id : String) (d : Document) (project : List Document) :
    resolveResultMap? id d project = (d.scope project).findSome? (·.target? id) := by
  unfold resolveResultMap? Document.scope
  cases d.isMapper with
  | false => rfl
  | true =>
    cases htarget : d.target? id with
    | none => simp [htarget]
    | some target => simp [htarget]

/-- The target of an id is the first result map of that id in a document of the scope. -/
theorem exists_mem_scope_of_resolve (h : resolveResultMap? id d project = some t) :
    t.document ∈ d.scope project ∧ t.document.resultMap? id = some t.definition := by
  rw [resolveResultMap?_eq_findSome?] at h
  obtain ⟨other, hother, htarget⟩ := List.exists_of_findSome?_eq_some h
  obtain ⟨rfl, hdefinition⟩ := Document.target?_eq_some_iff.1 htarget
  exact ⟨hother, hdefinition⟩

theorem resolveResultMap?_eq_none_iff :
    resolveResultMap? id d project = none ↔
      ∀ other ∈ d.scope project, other.resultMap? id = none := by
  simp [resolveResultMap?_eq_findSome?, Document.target?]

theorem resolveResultMap?_append (id : String) (d : Document) (project more : List Document) :
    resolveResultMap? id d (project ++ more) =
      (resolveResultMap? id d project).or (resolveResultMap? id d more) := by
  simp only [resolveResultMap?_eq_findSome?, Document.scope]
  cases d.isMapper with
  | false => rfl
  | true =>
    cases htarget : d.target? id with
    | none => simp [htarget, List.findSome?_append]
    | some target => simp [htarget]

/-- What resolves still resolves, to the same target, when documents other than the target are
left out of the project. -/
theorem resolveResultMap?_filter {keep : Document → Bool} (hd : keep d = true)
    (h : resolveResultMap? id d project = some t) (ht : keep t.document = true) :
    resolveResultMap? id d (project.filter keep) = some t := by
  have hscope : d.scope (project.filter keep) = (d.scope project).filter keep := by
    unfold Document.scope
    split
    · rw [List.filter_cons_of_pos hd, List.filter_filter, List.filter_filter]
      simp only [Bool.and_comm]
    · rfl
  rw [resolveResultMap?_eq_findSome?] at h ⊢
  rw [hscope]
  -- No document in front of the target defines the id, whether it is left out or not.
  obtain ⟨front, other, back, hsplit, htarget, hfront⟩ := List.findSome?_eq_some_iff.1 h
  obtain ⟨rfl, -⟩ := Document.target?_eq_some_iff.1 htarget
  have hnone : (front.filter keep).findSome? (·.target? id) = none :=
    List.findSome?_eq_none_iff.2 fun x hx => hfront x (List.mem_filter.1 hx).1
  rw [hsplit, List.filter_append, List.filter_cons_of_pos ht, List.findSome?_append, hnone]
  simp [htarget]

/-- What does not resolve still does not when documents are left out of the project. -/
theorem resolveResultMap?_filter_eq_none (keep : Document → Bool)
    (h : resolveResultMap? id d project = none) :
    resolveResultMap? id d (project.filter keep) = none := by
  rw [resolveResultMap?_eq_none_iff] at h ⊢
  intro other hother
  apply h
  rw [Document.mem_scope] at hother ⊢
  exact ⟨hother.1, hother.2.imp_right (And.imp_left fun h => (List.mem_filter.1 h).1)⟩

end SqlMapper

import Mathlib.Logic.Relation
import SqlMapper.Proofs.Document.Resolution
import SqlMapper.Proofs.First

/-!
# The result map that an id stands for

Resolution without searching: which result map an id stands for is said by the order of documents
and of definitions alone. Documents that share nothing with the current one can be put into a
project and taken out of it without changing what any id stands for.

## Main definitions

* `Document.Reaches`: the documents whose result maps can be referred to.
* `Document.StandsFor`: the result map that an id stands for.
* `Document.Inserts`: a project with one more document that cannot be referred to.

## Main statements

* `resolveResultMap?_eq_some_iff`: resolution finds the result map that an id stands for.
* `Document.Inserts.resolveResultMap?_eq`, `resolveResultMap?_eq_of_eqvGen`: one change of a
  project, and any number of them.
* `resolveResultMap?_exact`: when resolution finds something, what it finds, and what it ignores.
-/

namespace SqlMapper

/-! ### Documents that an id can lead to -/

namespace Document

variable {current other d : Document} {project project' : List Document} {id : String}

/-- The result maps of another document can be referred to in the current one. -/
structure Reaches (current other : Document) : Prop where
  uri_ne : other.uri ≠ current.uri
  rootTag_eq : other.rootTag = "mapper"
  namespaceName_eq : other.namespaceName = current.namespaceName

theorem isMapper_iff : d.isMapper = true ↔ d.rootTag = "mapper" :=
  beq_iff_eq

theorem sharesWith_iff : current.sharesWith other = true ↔ current.Reaches other := by
  simp only [sharesWith, Bool.and_eq_true, decide_eq_true_eq, isMapper_iff]
  constructor
  · rintro ⟨⟨huri, htag⟩, hname⟩
    exact ⟨huri, htag, hname⟩
  · rintro ⟨huri, htag, hname⟩
    exact ⟨⟨huri, htag⟩, hname⟩

theorem resultMap?_eq_some_iff {r : ResultMap} :
    d.resultMap? id = some r ↔ IsFirst (fun m => m.id = id) d.resultMaps r := by
  rw [resultMap?, find?_eq_some_iff_isFirst]
  simp only [beq_iff_eq]

theorem isSome_target?_iff : (d.target? id).isSome = true ↔ d.Defines id := by
  rw [target?, Option.isSome_map, Option.isSome_iff_ne_none, ne_eq, resultMap?_eq_none_iff,
    Decidable.not_not]

/-- An id stands for the first result map of that id in the current document or, if that has none,
in the first document with such a result map that can be referred to. -/
inductive StandsFor (current : Document) (project : List Document) (id : String) :
    ResultMapTarget → Prop where
  | own {r : ResultMap} (mapper : current.rootTag = "mapper")
      (first : IsFirst (fun m => m.id = id) current.resultMaps r) :
      StandsFor current project id ⟨current, r⟩
  | shared {other : Document} {r : ResultMap} (mapper : current.rootTag = "mapper")
      (undefined : ¬current.Defines id)
      (document : IsFirst (fun d => current.Reaches d ∧ d.Defines id) project other)
      (first : IsFirst (fun m => m.id = id) other.resultMaps r) :
      StandsFor current project id ⟨other, r⟩

theorem StandsFor.id_eq {t : ResultMapTarget} (h : current.StandsFor project id t) :
    t.definition.id = id := by
  cases h with
  | own _ first =>
    obtain ⟨-, -, -, hid, -⟩ := first
    exact hid
  | shared _ _ _ first =>
    obtain ⟨-, -, -, hid, -⟩ := first
    exact hid

/-- One more document in the project that is no mapper document, has another namespace, or has the
uri of the current document. -/
inductive Inserts (current : Document) : List Document → List Document → Prop where
  | insert (front back : List Document) (other : Document)
      (unrelated : other.rootTag ≠ "mapper" ∨ other.namespaceName ≠ current.namespaceName ∨
        other.uri = current.uri) :
      Inserts current (front ++ back) (front ++ other :: back)

theorem Inserts.scope_eq (h : current.Inserts project project') :
    current.scope project' = current.scope project := by
  obtain ⟨front, back, other, hunrelated⟩ := h
  have hhidden : ¬current.sharesWith other = true := by
    rw [sharesWith_iff]
    rintro ⟨huri, htag, hname⟩
    rcases hunrelated with h | h | h
    · exact h htag
    · exact h hname
    · exact huri h
  simp only [scope, List.filter_append, List.filter_cons_of_neg hhidden]

theorem Inserts.resolveResultMap?_eq (h : current.Inserts project project') (id : String) :
    resolveResultMap? id current project' = resolveResultMap? id current project := by
  rw [resolveResultMap?_eq_findSome?, resolveResultMap?_eq_findSome?, h.scope_eq]

end Document

/-! ### Resolution -/

variable {id : String} {current : Document} {project project' : List Document}
  {t : ResultMapTarget}

theorem findSome?_target?_filter :
    (project.filter current.sharesWith).findSome? (·.target? id) = some t ↔
      IsFirst (fun d => current.Reaches d ∧ d.Defines id) project t.document ∧
        IsFirst (fun m => m.id = id) t.document.resultMaps t.definition := by
  rw [findSome?_eq_some_iff_isFirst]
  simp only [isFirst_filter, Document.sharesWith_iff, Document.isSome_target?_iff,
    Document.target?_eq_some_iff, Document.resultMap?_eq_some_iff]
  constructor
  · rintro ⟨d, hfirst, rfl, hdefinition⟩
    exact ⟨hfirst, hdefinition⟩
  · rintro ⟨hfirst, hdefinition⟩
    exact ⟨t.document, hfirst, rfl, hdefinition⟩

theorem resolveResultMap?_of_rootTag (hmapper : current.rootTag = "mapper") (id : String)
    (project : List Document) :
    resolveResultMap? id current project =
      (current.target? id).or
        ((project.filter current.sharesWith).findSome? (·.target? id)) := by
  rw [resolveResultMap?_eq_findSome?, Document.scope, if_pos (Document.isMapper_iff.2 hmapper),
    List.findSome?_cons]
  cases current.target? id <;> rfl

theorem resolveResultMap?_of_rootTag_ne (hmapper : current.rootTag ≠ "mapper") (id : String)
    (project : List Document) : resolveResultMap? id current project = none := by
  rw [resolveResultMap?_eq_findSome?, Document.scope,
    if_neg (mt Document.isMapper_iff.1 hmapper), List.findSome?_nil]

theorem resolveResultMap?_eq_some_iff :
    resolveResultMap? id current project = some t ↔ current.StandsFor project id t := by
  constructor
  · intro h
    by_cases hmapper : current.rootTag = "mapper"
    · rw [resolveResultMap?_of_rootTag hmapper] at h
      cases htarget : current.target? id with
      | some target =>
        rw [htarget, Option.some_or, Option.some.injEq] at h
        subst h
        obtain ⟨rfl, hfirst⟩ := Document.target?_eq_some_iff.1 htarget
        exact .own hmapper (Document.resultMap?_eq_some_iff.1 hfirst)
      | none =>
        rw [htarget, Option.none_or, findSome?_target?_filter] at h
        have hundefined : ¬current.Defines id := by simp [← Document.isSome_target?_iff, htarget]
        exact .shared hmapper hundefined h.1 h.2
    · rw [resolveResultMap?_of_rootTag_ne hmapper] at h
      cases h
  · rintro (⟨hmapper, hfirst⟩ | ⟨hmapper, hundefined, hdocument, hfirst⟩)
    · have htarget : current.target? id = some ⟨current, _⟩ :=
        Document.target?_eq_some_iff.2 ⟨rfl, Document.resultMap?_eq_some_iff.2 hfirst⟩
      rw [resolveResultMap?_of_rootTag hmapper, htarget, Option.some_or]
    · have htarget : current.target? id = none := by
        rwa [← Document.isSome_target?_iff, Option.not_isSome_iff_eq_none] at hundefined
      rw [resolveResultMap?_of_rootTag hmapper, htarget, Option.none_or]
      exact findSome?_target?_filter.2 ⟨hdocument, hfirst⟩

theorem exists_resolveResultMap?_iff :
    (∃ t, resolveResultMap? id current project = some t) ↔
      current.rootTag = "mapper" ∧
        (current.Defines id ∨ ∃ other ∈ project, current.Reaches other ∧ other.Defines id) := by
  rw [← Option.isSome_iff_exists, Option.isSome_iff_ne_none, ne_eq, resolveResultMap?_eq_none_iff]
  simp only [Document.mem_scope, Document.isMapper_iff, Document.sharesWith_iff,
    Document.resultMap?_eq_none_iff]
  grind

/-- Any number of documents that cannot be referred to, put in and taken out in any order. -/
theorem resolveResultMap?_eq_of_eqvGen (h : Relation.EqvGen current.Inserts project project')
    (id : String) : resolveResultMap? id current project' = resolveResultMap? id current project := by
  induction h with
  | rel _ _ hinsert => exact hinsert.resolveResultMap?_eq id
  | refl _ => rfl
  | symm _ _ _ ih => exact ih.symm
  | trans _ _ _ _ _ ih₁ ih₂ => exact ih₂.trans ih₁

/-- Resolution finds something exactly if the current document is a mapper document and defines the
id, or another mapper document of the project with the same namespace and another uri does. It
finds the first definition in the current document, otherwise the first one in the first such
document, and what it finds has the id. Documents that are no mapper documents, have another
namespace or have the uri of the current document make no difference, wherever and however many of
them are put into the project or taken out of it. -/
theorem resolveResultMap?_exact (id : String) (current : Document) (project : List Document) :
    ((∃ t, resolveResultMap? id current project = some t) ↔
      current.rootTag = "mapper" ∧
        (current.Defines id ∨ ∃ other ∈ project, current.Reaches other ∧ other.Defines id)) ∧
    (∀ t, resolveResultMap? id current project = some t ↔ current.StandsFor project id t) ∧
    (∀ t, resolveResultMap? id current project = some t →
      t.definition.id = id ∧ (id ≠ "" → t.id? = some id)) ∧
    ∀ project', Relation.EqvGen current.Inserts project project' →
      resolveResultMap? id current project' = resolveResultMap? id current project := by
  refine ⟨exists_resolveResultMap?_iff, fun t => resolveResultMap?_eq_some_iff, ?_, ?_⟩
  · intro t ht
    have hid : t.definition.id = id := (resolveResultMap?_eq_some_iff.1 ht).id_eq
    refine ⟨hid, fun hne => ?_⟩
    rw [ResultMapTarget.id?, hid, if_neg hne]
  · intro project' h
    exact resolveResultMap?_eq_of_eqvGen h id

/-- A document without a namespace that has one result map. -/
def singleMap (uri tag id : String) : Document :=
  .ofRoot ⟨uri⟩ "" ⟨tag, [], ⟨0, 0⟩, [⟨"resultMap", [⟨none, "id", id, ⟨0, 0⟩⟩], ⟨0, 0⟩, []⟩]⟩

/-- Of two mapper documents without a namespace the first one is taken. A document of another kind
and an older state of the current document in front of them are passed over. -/
theorem resolveResultMap?_exact_stale :
    resolveResultMap? "m" (singleMap "main" "mapper" "local")
        [singleMap "a" "mapper" "m", singleMap "b" "mapper" "m"] =
      some ⟨singleMap "a" "mapper" "m", ⟨"m", none, ⟨0, 0⟩, ⟨0, 0⟩⟩⟩ ∧
    ResultMapTarget.id? ⟨singleMap "a" "mapper" "m", ⟨"m", none, ⟨0, 0⟩, ⟨0, 0⟩⟩⟩ = some "m" ∧
    resolveResultMap? "m" (singleMap "main" "mapper" "local")
        [singleMap "c" "configuration" "m", singleMap "main" "mapper" "m",
          singleMap "a" "mapper" "m", singleMap "b" "mapper" "m"] =
      some ⟨singleMap "a" "mapper" "m", ⟨"m", none, ⟨0, 0⟩, ⟨0, 0⟩⟩⟩ := by
  obtain ⟨-, htarget, hid, hinserts⟩ := resolveResultMap?_exact "m"
    (singleMap "main" "mapper" "local") [singleMap "a" "mapper" "m", singleMap "b" "mapper" "m"]
  have hfound := (htarget ⟨singleMap "a" "mapper" "m", ⟨"m", none, ⟨0, 0⟩, ⟨0, 0⟩⟩⟩).2 <|
    .shared rfl (by decide +kernel)
      ⟨[], [_], rfl, ⟨⟨by decide, rfl, rfl⟩, by decide +kernel⟩, by simp⟩
      ⟨[], [], by decide +kernel, rfl, by simp⟩
  refine ⟨hfound, (hid _ hfound).2 (by decide), ?_⟩
  rw [← hfound]
  apply hinserts
  exact .trans _ _ _ (.rel _ _ (.insert [] _ (singleMap "main" "mapper" "m") (.inr (.inr rfl))))
    (.rel _ _ (.insert [] _ (singleMap "c" "configuration" "m") (.inl (by decide))))

end SqlMapper

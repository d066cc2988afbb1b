import Mathlib.Data.List.Induction
import SqlMapper.Completion.Bindings
import SqlMapper.Proofs.First
import SqlMapper.Proofs.Model.FirstOfEach
import SqlMapper.Proofs.Table

/-!
# Bindings of parameters

The table at the start of a path, by the parameters that it is made of. Parameters come in one by
one: a new name goes to the end, a known one keeps its place and takes the later type. So the
order of the names is that of their first parameters, and the type of a name is that of its last.

## Main definitions

* `Parameter.GoesBy`: the names that parameters can be used under.
* `Bindings.Precedes`: the order in which names come up.

## Main statements

* `Bindings.keys_ofParameters`: the names, in order.
* `Bindings.get?_ofParameters`: the type of a name.
* `Bindings.get?_ofParameters_eq_some_iff`: the parameter that a type comes from.
* `Bindings.ofParameters_append`: parameters behind others.
* `Bindings.ofParameters_exact`: the table and its parameters.
-/

namespace SqlMapper

namespace Bindings

theorem ofParameters_concat (parameters : List Parameter) (p : Parameter) :
    ofParameters (parameters ++ [p]) = (ofParameters parameters).addParameter p := by
  rw [ofParameters, List.foldl_append]
  rfl

/-- One more parameter sets the type of its name. -/
theorem get?_addParameter (table : Bindings) (p : Parameter) (name : String) :
    (table.addParameter p).get? name =
      if p.effectiveName? = some name then some p.typeName else table.get? name := by
  unfold addParameter
  cases hname : p.effectiveName? with
  | none => simp
  | some other =>
    rw [Table.get?_insert]
    by_cases h : name = other
    · simp [h]
    · simp [h, Ne.symm h]

/-- The names of parameters are the different names under which they can be used, in the order in
which these come up first. -/
theorem keys_ofParameters (parameters : List Parameter) :
    (ofParameters parameters).keys = (parameters.filterMap (·.effectiveName?)).eraseDups := by
  induction parameters using List.reverseRecOn with
  | nil => rfl
  | append_singleton parameters p ih =>
    rw [ofParameters_concat, addParameter, List.filterMap_append, List.filterMap_cons]
    cases p.effectiveName? with
    | none => simpa using ih
    | some name =>
      rw [List.filterMap_nil, eraseDups_concat, Table.keys_insert, ih]
      simp only [List.mem_eraseDups]

/-- The type of a name is that of the last parameter that can be used under it. -/
theorem get?_ofParameters (parameters : List Parameter) (name : String) :
    (ofParameters parameters).get? name =
      (parameters.reverse.find? fun p => p.effectiveName? = some name).map (·.typeName) := by
  induction parameters using List.reverseRecOn with
  | nil => rfl
  | append_singleton parameters p ih =>
    rw [ofParameters_concat, get?_addParameter, ih, List.reverse_concat, List.find?_cons]
    by_cases hname : p.effectiveName? = some name <;> simp [hname]

/-- The type of a name comes from a parameter that has that name, and behind which none has it. -/
theorem get?_ofParameters_eq_some_iff {parameters : List Parameter} {name typeName : String} :
    (ofParameters parameters).get? name = some typeName ↔
      ∃ before p after, parameters = before ++ p :: after ∧ p.effectiveName? = some name ∧
        p.typeName = typeName ∧ ∀ q ∈ after, q.effectiveName? ≠ some name := by
  rw [get?_ofParameters, Option.map_eq_some_iff]
  simp only [find?_reverse_eq_some_iff, decide_eq_true_eq, decide_eq_false_iff_not]
  constructor
  · rintro ⟨p, ⟨before, after, hsplit, hname, hlater⟩, htype⟩
    exact ⟨before, p, after, hsplit, hname, htype, hlater⟩
  · rintro ⟨before, p, after, hsplit, hname, htype, hlater⟩
    exact ⟨p, ⟨before, after, hsplit, hname, hlater⟩, htype⟩

/-- Every entry comes from a parameter that has its name and its type, and behind which no
parameter has that name. -/
theorem exists_parameter_of_mem {parameters : List Parameter} {name typeName : String}
    (h : (name, typeName) ∈ (ofParameters parameters).entries) :
    ∃ before p after, parameters = before ++ p :: after ∧ p.effectiveName? = some name ∧
      p.typeName = typeName ∧ ∀ q ∈ after, q.effectiveName? ≠ some name :=
  get?_ofParameters_eq_some_iff.1 (Table.get?_eq_some_iff.2 h)

theorem mem_keys_ofParameters {parameters : List Parameter} {name : String} :
    name ∈ (ofParameters parameters).keys ↔
      ∃ p ∈ parameters, p.effectiveName? = some name := by
  rw [keys_ofParameters, List.mem_eraseDups, List.mem_filterMap]

/-! ### Parts of a list of parameters -/

theorem ofParameters_filter (parameters : List Parameter) :
    ofParameters (parameters.filter fun p => p.rename.isSome) = ofParameters parameters := by
  induction parameters using List.reverseRecOn with
  | nil => rfl
  | append_singleton parameters p ih =>
    rw [List.filter_append, ofParameters_concat]
    cases hrename : p.rename with
    | none => simpa [hrename, addParameter, Parameter.effectiveName?] using ih
    | some rename =>
      rw [List.filter_cons_of_pos (by simp [hrename]), List.filter_nil, ofParameters_concat, ih]

theorem ofParameters_append (parameters more : List Parameter) :
    ofParameters (parameters ++ more) = (ofParameters parameters).merge (ofParameters more) := by
  induction more using List.reverseRecOn with
  | nil =>
    rw [List.append_nil]
    rfl
  | append_singleton more p ih =>
    rw [← List.append_assoc, ofParameters_concat, ofParameters_concat, ih]
    unfold addParameter
    cases p.effectiveName? with
    | none => rfl
    | some name => exact (Table.merge_insert _ _ name p.typeName).symm

end Bindings

/-! ### The names of parameters -/

/-- The parameter can be used under the name: it has the annotation, and the name is the one that
this gives or, if it gives none or the empty one, the declared one. -/
inductive Parameter.GoesBy (p : Parameter) : String → Prop
  | renamed {name : String} : p.rename = some ⟨some name⟩ → name ≠ "" → p.GoesBy name
  | emptied : p.rename = some ⟨some ""⟩ → p.GoesBy p.name
  | declared : p.rename = some ⟨none⟩ → p.GoesBy p.name

theorem Parameter.effectiveName?_eq_some_iff {p : Parameter} {name : String} :
    p.effectiveName? = some name ↔ p.GoesBy name := by
  constructor
  · intro h
    obtain ⟨rename, hrename, hname⟩ := Option.map_eq_some_iff.1 h
    obtain ⟨value⟩ := rename
    cases value with
    | none =>
      subst hname
      exact .declared hrename
    | some value =>
      by_cases hempty : value = ""
      · subst hempty
        obtain rfl : p.name = name := hname
        exact .emptied hrename
      · obtain rfl : value = name := by simpa [hempty] using hname
        exact .renamed hrename hempty
  · rintro (⟨hrename, hne⟩ | hrename | hrename)
    · simp [effectiveName?, hrename, hne]
    · simp [effectiveName?, hrename]
    · simp [effectiveName?, hrename]

namespace Bindings

/-- Some parameter goes by the first name, and none in front of it by the second, another one. -/
def Precedes (parameters : List Parameter) (a b : String) : Prop :=
  a ≠ b ∧ ∃ before p after, parameters = before ++ p :: after ∧ p.GoesBy a ∧
    ∀ q ∈ before, ¬q.GoesBy b

theorem Precedes.append {parameters : List Parameter} {a b : String}
    (h : Precedes parameters a b) (more : List Parameter) : Precedes (parameters ++ more) a b := by
  obtain ⟨hne, before, p, after, rfl, hp, hbefore⟩ := h
  exact ⟨hne, before, p, after ++ more, by simp, hp, hbefore⟩

theorem pairwise_keys_ofParameters (parameters : List Parameter) :
    (ofParameters parameters).keys.Pairwise (Precedes parameters) := by
  induction parameters using List.reverseRecOn with
  | nil => exact List.Pairwise.nil
  | append_singleton parameters p ih =>
    have hgrown : (ofParameters parameters).keys.Pairwise (Precedes (parameters ++ [p])) :=
      ih.imp fun h => h.append [p]
    rw [ofParameters_concat, addParameter]
    cases p.effectiveName? with
    | none => exact hgrown
    | some name =>
      rw [Table.keys_insert]
      split
      · exact hgrown
      · next hfresh =>
        rw [List.pairwise_append]
        refine ⟨hgrown, List.pairwise_singleton _ _, fun a ha b hb => ?_⟩
        obtain rfl := List.mem_singleton.1 hb
        -- No parameter so far goes by the new name, whichever of them goes by the known one.
        obtain ⟨q, hq, hname⟩ := mem_keys_ofParameters.1 ha
        obtain ⟨before, after, rfl⟩ := List.append_of_mem hq
        refine ⟨fun h => hfresh (h ▸ ha), before, q, after ++ [p], by simp,
          Parameter.effectiveName?_eq_some_iff.1 hname, fun r hr hgoes => hfresh ?_⟩
        exact mem_keys_ofParameters.2
          ⟨r, by simp [hr], Parameter.effectiveName?_eq_some_iff.2 hgoes⟩

/-- The names are those that some parameter goes by, each once and in the order in which they come
up. The type of a name is that of the last parameter that goes by it. Parameters without the
annotation make no difference, wherever they stand, and parameters behind others set what the table
of their own has. -/
theorem ofParameters_exact (parameters more : List Parameter) :
    (∀ name, name ∈ (ofParameters parameters).keys ↔ ∃ p ∈ parameters, p.GoesBy name) ∧
    (ofParameters parameters).keys.Pairwise (Precedes parameters) ∧
    (∀ name typeName, (ofParameters parameters).get? name = some typeName ↔
      ∃ before p after, parameters = before ++ p :: after ∧ p.GoesBy name ∧
        p.typeName = typeName ∧ ∀ q ∈ after, ¬q.GoesBy name) ∧
    (∀ others : List Parameter,
      (others.filter fun p => p.rename.isSome) = (parameters.filter fun p => p.rename.isSome) →
      ofParameters others = ofParameters parameters) ∧
    ofParameters (parameters ++ more) = (ofParameters parameters).merge (ofParameters more) := by
  refine ⟨?_, pairwise_keys_ofParameters parameters, ?_, ?_, ofParameters_append parameters more⟩
  · intro name
    simp only [mem_keys_ofParameters, Parameter.effectiveName?_eq_some_iff]
  · intro name typeName
    simp only [get?_ofParameters_eq_some_iff, ne_eq, Parameter.effectiveName?_eq_some_iff]
  · intro others h
    rw [← ofParameters_filter others, h, ofParameters_filter]

/-- Two parameters share the name `id`, one by its annotation and one because that is empty, and a
third of that name is not annotated. -/
theorem ofParameters_exact_sharedId :
    let skipped : Parameter := ⟨"id", "Date", none⟩
    let parameters : List Parameter :=
      [⟨"user", "User", some ⟨some "id"⟩⟩, ⟨"limit", "Integer", some ⟨none⟩⟩,
        ⟨"id", "Long", some ⟨some ""⟩⟩]
    (ofParameters parameters).keys = ["id", "limit"] ∧
      (ofParameters parameters).get? "id" = some "Long" ∧
      Precedes parameters "id" "limit" ∧
      ofParameters (skipped :: parameters ++ [skipped]) = ofParameters parameters ∧
      ofParameters (parameters ++ parameters) =
        (ofParameters parameters).merge (ofParameters parameters) := by
  intro skipped parameters
  obtain ⟨-, horder, -, hskips, happend⟩ := ofParameters_exact parameters parameters
  have hkeys : (ofParameters parameters).keys = ["id", "limit"] := by decide
  rw [hkeys] at horder
  exact ⟨hkeys, by decide, List.rel_of_pairwise_cons horder (by simp), hskips _ (by decide),
    happend⟩

end Bindings

end SqlMapper

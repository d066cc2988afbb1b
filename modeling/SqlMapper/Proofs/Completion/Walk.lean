import SqlMapper.Completion.Walk
import SqlMapper.Proofs.Table

/-!
# What following a path finds

Following a path tries every binding at every step, but at most one binding has the name that is
asked for. A path therefore passes through one table after the other, each given by the type of
the name before it, and its candidates are read off the last table. Nothing is assumed about the
types: they may refer to themselves and to each other.

## Main definitions

* `Bindings.behind?`: the table behind a name.
* `Bindings.along?`: the table at a place of a path.
* `Bindings.candidates`: the bindings of a table that begin with a text.

## Main statements

* `walk_concat`: the candidates for a path, by its names and its target.
* `walk_eq_candidates`: the candidates for a path, by the table at its last place.
-/

namespace SqlMapper

namespace Bindings

/-- The bindings behind a name, if it is bound to a type that can have members. -/
def behind? (types : Introspector) (table : Bindings) (name : String) : Option Bindings :=
  (table.get? name).bind fun typeName =>
    if types.isStructured typeName then some (ofMembers types typeName) else none

/-- The bindings at place `i` of a path that starts in a table: those behind the name at each
earlier place, if every such name can be followed. -/
def along? (types : Introspector) (table : Bindings) (path : List String) : Nat → Option Bindings
  | 0 => some table
  | i + 1 => do
    let current ← along? types table path i
    let name ← path[i]?
    current.behind? types name

/-- The bindings whose names begin with `target`, as candidates at a depth. -/
def candidates (table : Bindings) (target : String) (depth : Nat) : List Candidate :=
  (table.entries.filter fun e => Text.startsWith e.1 target).map fun e => ⟨e.1, e.2, depth⟩

/-- The first step of a path leads to a table from which the rest of the path starts. -/
theorem along?_cons_succ (types : Introspector) (table : Bindings) (name : String)
    (path : List String) (i : Nat) :
    along? types table (name :: path) (i + 1) =
      (table.behind? types name).bind fun next => along? types next path i := by
  induction i with
  | zero => simp [along?]
  | succ i ih =>
    rw [along?, ih]
    cases hnext : table.behind? types name with
    | none => rfl
    | some next => simp [along?]

/-- What stands behind the place asked for does not matter. -/
theorem along?_append_of_le (types : Introspector) (table : Bindings)
    (path more : List String) {i : Nat} (hi : i ≤ path.length) :
    along? types table (path ++ more) i = along? types table path i := by
  induction i with
  | zero => rfl
  | succ i ih =>
    rw [along?, along?, ih (by omega), List.getElem?_append_left (by omega)]

/-- One more name at the end of a path is followed from the table at its end. -/
theorem along?_concat (types : Introspector) (table : Bindings) (path : List String)
    (name : String) :
    along? types table (path ++ [name]) (path.length + 1) =
      (along? types table path path.length).bind fun last => last.behind? types name := by
  rw [along?, along?_append_of_le types table path [name] (Nat.le_refl _)]
  cases along? types table path path.length with
  | none => rfl
  | some last => simp

/-- A name of the table is behind it exactly as its type says. -/
theorem behind?_of_mem (types : Introspector) {table : Bindings} {name typeName : String}
    (h : (name, typeName) ∈ table.entries) :
    table.behind? types name =
      if types.isStructured typeName then some (ofMembers types typeName) else none := by
  rw [behind?, Table.get?_eq_some_iff.2 h]
  rfl

theorem mem_candidates {table : Bindings} {target : String} {depth : Nat} {c : Candidate} :
    c ∈ table.candidates target depth ↔
      (c.label, c.typeName) ∈ table.entries ∧ Text.startsWith c.label target = true ∧
        c.depth = depth := by
  obtain ⟨label, typeName, d⟩ := c
  simp only [candidates, List.mem_map, List.mem_filter, Candidate.mk.injEq]
  constructor
  · rintro ⟨e, ⟨hmem, hstart⟩, rfl, rfl, rfl⟩
    exact ⟨hmem, hstart, rfl⟩
  · rintro ⟨hmem, hstart, rfl⟩
    exact ⟨(label, typeName), ⟨hmem, hstart⟩, rfl, rfl, rfl⟩

/-- Candidates from one table have different labels. -/
theorem nodup_labels_candidates (table : Bindings) (target : String) (depth : Nat) :
    ((table.candidates target depth).map (·.label)).Nodup := by
  rw [candidates, List.map_map]
  exact table.distinct.sublist (List.filter_sublist.map _)

end Bindings

/-- A step of a walk: the name before the rest of a path selects at most one binding, and the
rest is followed behind it. -/
theorem walkFrom_cons (types : Introspector) (maxDepth depth : Nat) (name : String)
    {path : List String} (hpath : path ≠ []) (table : Bindings) :
    walkFrom types maxDepth depth (name :: path) table =
      if depth < maxDepth then
        (table.behind? types name).elim [] (walkFrom types maxDepth (depth + 1) path)
      else [] := by
  rw [walkFrom]
  · by_cases hdepth : depth < maxDepth
    · -- Bindings of other names add nothing, so the loop over the table is a look-up.
      rw [if_neg (by omega), if_pos hdepth,
        Table.flatMap_entries_of_key table name (by simp +contextual), Bindings.behind?]
      cases table.get? name with
      | none => rfl
      | some typeName => by_cases hstruct : types.isStructured typeName <;> simp [hstruct]
    · rw [if_pos (by omega), if_neg hdepth]
  · exact hpath

/-- The last step of a walk: the bindings that begin with the target. -/
theorem walkFrom_singleton (types : Introspector) (maxDepth depth : Nat) (target : String)
    (table : Bindings) :
    walkFrom types maxDepth depth [target] table =
      if depth < maxDepth then table.candidates target depth else [] := by
  by_cases hdepth : depth < maxDepth
  · rw [walkFrom, if_neg (by omega), if_pos hdepth, Bindings.candidates]
    induction table.entries with
    | nil => rfl
    | cons e es ih =>
      by_cases hstart : Text.startsWith e.1 target = true <;> simp [hstart, ih]
  · rw [walkFrom, if_pos (by omega), if_neg hdepth]

/-- The whole walk, from a place of the path on. The induction is on the names before the target;
the depth grows by one with each of them, so the cap is met exactly if the path is too long. -/
theorem walkFrom_concat (types : Introspector) (maxDepth depth : Nat) (names : List String)
    (target : String) (table : Bindings) :
    walkFrom types maxDepth depth (names ++ [target]) table =
      if depth + names.length < maxDepth then
        (Bindings.along? types table names names.length).elim []
          (·.candidates target (depth + names.length))
      else [] := by
  induction names generalizing depth table with
  | nil => exact walkFrom_singleton types maxDepth depth target table
  | cons name names ih =>
    have hne : names ++ [target] ≠ [] := by simp
    have hlen : depth + 1 + names.length = depth + (name :: names).length := by
      rw [List.length_cons]
      omega
    rw [List.cons_append, walkFrom_cons types maxDepth depth name hne, List.length_cons,
      Bindings.along?_cons_succ]
    cases hnext : table.behind? types name with
    | none => simp
    | some next =>
      rw [Option.elim_some, ih, hlen, Option.bind_some, List.length_cons]
      by_cases hdepth : depth + (names.length + 1) < maxDepth
      · rw [if_pos hdepth, if_pos (by omega)]
      · simp [hdepth]

/-- The candidates for a path: those that the table behind its names has for its target, unless
the path is longer than the cap. -/
theorem walk_concat (types : Introspector) (maxDepth : Nat) (names : List String)
    (target : String) (table : Bindings) :
    walk types maxDepth (names ++ [target]) table =
      if names.length < maxDepth then
        (Bindings.along? types table names names.length).elim []
          (·.candidates target names.length)
      else [] := by
  have h := walkFrom_concat types maxDepth 0 names target table
  rwa [Nat.zero_add] at h

/-- Following a path finds exactly the bindings of the table at its last place that begin with
its last name, in their order. It finds nothing for the empty path, for paths longer than the cap
and where a name cannot be followed. All candidates have the same depth and different labels. -/
theorem walk_eq_candidates (types : Introspector) (maxDepth : Nat) (path : List String)
    (table : Bindings) :
    walk types maxDepth path table =
        (match path.getLast?, Bindings.along? types table path (path.length - 1) with
          | some target, some last =>
            if path.length ≤ maxDepth then
              (last.entries.filter fun e => Text.startsWith e.1 target).map fun e =>
                Candidate.mk e.1 e.2 (path.length - 1)
            else []
          | _, _ => []) ∧
      (∀ c ∈ walk types maxDepth path table, c.depth = path.length - 1) ∧
      ((walk types maxDepth path table).map (·.label)).Nodup := by
  rcases List.eq_nil_or_concat path with rfl | ⟨names, target, rfl⟩
  · simp [walk, walkFrom]
  · rw [List.concat_eq_append, walk_concat, List.length_append, List.length_singleton,
      Nat.add_sub_cancel, Bindings.along?_append_of_le types table names [target] (Nat.le_refl _),
      List.getLast?_concat]
    cases hlast : Bindings.along? types table names names.length with
    | none => simp
    | some last =>
      by_cases hdepth : names.length < maxDepth
      · rw [if_pos hdepth, Option.elim_some]
        refine ⟨?_, ?_, Bindings.nodup_labels_candidates last target names.length⟩
        · exact (if_pos hdepth).symm
        · intro c hc
          exact (Bindings.mem_candidates.1 hc).2.2
      · have hlong : ¬ names.length + 1 ≤ maxDepth := by omega
        simp [hdepth, hlong]

end SqlMapper

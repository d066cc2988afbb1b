import SqlMapper.Completion.Offer
import SqlMapper.Proofs.Completion.Bindings
import SqlMapper.Proofs.Completion.Walk

/-!
# What is offered

The items of a completion list are the candidates for the path being typed, nothing added and
nothing left out. That there is nothing to offer without parameters needs no case of its own:
every path from an empty table ends at once.

## Main statements

* `items_complete`: the items are the candidates for the path.
* `items_complete_concat`: the items, by the names of the path and its target.
* `complete_cases`: a list is empty or offers the candidates of one table.
* `exists_binding_of_mem`: where an item comes from.
* `mem_bindings_of_parameter`: items for parameters are bindings of parameters.
* `visible_complete`, `nodup_labels_complete`, `kind_eq_parameter_iff`: what all lists have in common.
-/

namespace SqlMapper

/-- From a table without bindings no path leads anywhere. -/
theorem walk_of_isEmpty (types : Introspector) (maxDepth : Nat) (path : List String)
    {table : Bindings} (h : table.isEmpty = true) : walk types maxDepth path table = [] := by
  have hentries : table.entries = [] := List.isEmpty_iff.1 h
  unfold walk
  cases path with
  | nil => rfl
  | cons name rest =>
    cases rest with
    | nil => simp [walkFrom, hentries]
    | cons next rest => simp [walkFrom, hentries]

theorem complete_of_isEmpty (types : Introspector) (m : Markers) {parameters : List Parameter}
    (raw : String) (h : (Bindings.ofParameters parameters).isEmpty = true) :
    complete types m parameters raw = CompletionList.empty := by
  simp [complete, h]

theorem complete_of_tokenize?_eq_none (types : Introspector) {m : Markers}
    (parameters : List Parameter) {raw : String} (h : tokenize? m raw = none) :
    complete types m parameters raw = CompletionList.empty := by
  simp [complete, h]

theorem complete_of_tokenize?_eq_some (types : Introspector) {m : Markers}
    {parameters : List Parameter} {raw : String} {path : TypedPath}
    (hparameters : (Bindings.ofParameters parameters).isEmpty = false)
    (hpath : tokenize? m raw = some path) :
    complete types m parameters raw =
      offer path (walk types m.maxDepth path.segments (Bindings.ofParameters parameters)) := by
  simp [complete, hparameters, hpath]

/-- The items offered for a text are the candidates for the path at its end. -/
theorem items_complete (types : Introspector) (m : Markers) (parameters : List Parameter)
    (raw : String) :
    (complete types m parameters raw).items =
      (tokenize? m raw).elim [] fun path =>
        (walk types m.maxDepth path.segments (Bindings.ofParameters parameters)).map
          Candidate.toItem := by
  cases hpath : tokenize? m raw with
  | none =>
    rw [complete_of_tokenize?_eq_none types parameters hpath]
    rfl
  | some path =>
    cases hempty : (Bindings.ofParameters parameters).isEmpty with
    | true =>
      rw [complete_of_isEmpty types m raw hempty, Option.elim_some,
        walk_of_isEmpty types m.maxDepth path.segments hempty]
      rfl
    | false =>
      rw [complete_of_tokenize?_eq_some types hempty hpath]
      rfl

/-- The items offered for a path of some names and a target: the bindings behind the names that
begin with the target. -/
theorem items_complete_concat (types : Introspector) {m : Markers} (parameters : List Parameter)
    {raw target : String} {names : List String} {path : TypedPath}
    (hpath : tokenize? m raw = some path) (hsegments : path.segments = names ++ [target]) :
    (complete types m parameters raw).items =
      if names.length < m.maxDepth then
        (Bindings.along? types (Bindings.ofParameters parameters) names names.length).elim []
          fun last => (last.candidates target names.length).map Candidate.toItem
      else [] := by
  rw [items_complete, hpath, Option.elim_some, hsegments, walk_concat]
  split
  · cases Bindings.along? types (Bindings.ofParameters parameters) names names.length with
    | none => rfl
    | some last => rfl
  · rfl

theorem Candidate.kind_toItem (c : Candidate) :
    c.toItem.kind = .parameter ↔ c.depth = 0 := by
  unfold Candidate.toItem
  by_cases h : c.depth = 0 <;> simp [h]

/-- An item is a binding of the table behind the names of the path. It stands for a parameter if
there are no such names. -/
theorem exists_binding_of_mem {types : Introspector} {m : Markers} {parameters : List Parameter}
    {raw target : String} {names : List String} {path : TypedPath} {item : CompletionItem}
    (hpath : tokenize? m raw = some path) (hsegments : path.segments = names ++ [target])
    (hitem : item ∈ (complete types m parameters raw).items) :
    ∃ last,
      Bindings.along? types (Bindings.ofParameters parameters) names names.length = some last ∧
      (item.label, item.detail) ∈ last.entries ∧ (item.kind = .parameter ↔ names = []) := by
  rw [items_complete_concat types parameters hpath hsegments] at hitem
  split at hitem
  · cases hlast : Bindings.along? types (Bindings.ofParameters parameters) names names.length with
    | none =>
      rw [hlast] at hitem
      cases hitem
    | some last =>
      rw [hlast, Option.elim_some, List.mem_map] at hitem
      obtain ⟨c, hc, rfl⟩ := hitem
      obtain ⟨hmem, -, hdepth⟩ := Bindings.mem_candidates.1 hc
      refine ⟨last, rfl, hmem, ?_⟩
      rw [c.kind_toItem, hdepth, List.length_eq_zero_iff]
  · cases hitem

/-- An item that stands for a parameter is a binding of the parameters. Only a path without
names before its target is completed by parameters. -/
theorem mem_bindings_of_parameter {types : Introspector} {m : Markers}
    {parameters : List Parameter} {raw : String} {item : CompletionItem}
    (hitem : item ∈ (complete types m parameters raw).items) (hkind : item.kind = .parameter) :
    (item.label, item.detail) ∈ (Bindings.ofParameters parameters).entries := by
  cases hpath : tokenize? m raw with
  | none =>
    rw [items_complete, hpath] at hitem
    cases hitem
  | some path =>
    rcases List.eq_nil_or_concat path.segments with hnil | ⟨names, target, hconcat⟩
    · rw [items_complete, hpath, Option.elim_some, hnil] at hitem
      cases hitem
    · rw [List.concat_eq_append] at hconcat
      obtain ⟨last, hlast, hmem, hnames⟩ := exists_binding_of_mem hpath hconcat hitem
      rw [hnames.1 hkind] at hlast
      cases hlast
      exact hmem

/-- A single name is completed by the names of parameters that begin with it, in order. -/
theorem labels_complete_singleton (types : Introspector) {m : Markers}
    (parameters : List Parameter) {raw target : String} {path : TypedPath}
    (hpath : tokenize? m raw = some path) (hsegments : path.segments = [target])
    (hdepth : 1 ≤ m.maxDepth) :
    (complete types m parameters raw).labels =
        (Bindings.ofParameters parameters).keys.filter (Text.startsWith · target) ∧
      ∀ item ∈ (complete types m parameters raw).items, item.kind = .parameter := by
  have hitems := items_complete_concat types parameters hpath
    (show path.segments = [] ++ [target] from hsegments)
  rw [if_pos (show ([] : List String).length < m.maxDepth from hdepth)] at hitems
  change _ = ((Bindings.ofParameters parameters).candidates target 0).map Candidate.toItem
    at hitems
  constructor
  · rw [CompletionList.labels, hitems, Bindings.candidates, Table.keys, List.filter_map]
    simp only [List.map_map]
    rfl
  · intro item hitem
    rw [hitems, List.mem_map] at hitem
    obtain ⟨c, hc, rfl⟩ := hitem
    exact c.kind_toItem.2 (Bindings.mem_candidates.1 hc).2.2

/-! ### Lists that agree with themselves -/

/-- Every way of having nothing to offer gives an empty list. Otherwise all items come from one
table, the one behind the names of the path. -/
theorem complete_cases (types : Introspector) (m : Markers) (parameters : List Parameter)
    (raw : String) :
    (complete types m parameters raw).items = [] ∨
      ∃ path names target last, tokenize? m raw = some path ∧
        path.segments = names ++ [target] ∧
        complete types m parameters raw =
          offer path (Bindings.candidates last target names.length) := by
  cases hpath : tokenize? m raw with
  | none =>
    left
    rw [complete_of_tokenize?_eq_none types parameters hpath]
    rfl
  | some path =>
    cases hempty : (Bindings.ofParameters parameters).isEmpty with
    | true =>
      left
      rw [complete_of_isEmpty types m raw hempty]
      rfl
    | false =>
      rw [complete_of_tokenize?_eq_some types hempty hpath]
      rcases List.eq_nil_or_concat path.segments with hnil | ⟨names, target, hconcat⟩
      · left
        rw [hnil]
        rfl
      · rw [List.concat_eq_append] at hconcat
        rw [hconcat, walk_concat]
        split
        · cases Bindings.along? types (Bindings.ofParameters parameters) names names.length with
          | none => exact .inl rfl
          | some last => exact .inr ⟨path, names, target, last, rfl, hconcat, rfl⟩
        · exact .inl rfl

/-- Candidates begin with the target, and a list is narrowed down by the target or not at all. -/
theorem visible_offer {path : TypedPath} {names : List String} {target : String}
    (hsegments : path.segments = names ++ [target]) (table : Bindings) (depth : Nat) :
    (offer path (table.candidates target depth)).visible =
      (offer path (table.candidates target depth)).items := by
  have htarget : path.target = target := by simp [TypedPath.target, hsegments]
  rw [CompletionList.visible, List.filter_eq_self]
  intro item hitem
  obtain ⟨c, hc, rfl⟩ := List.mem_map.1 hitem
  obtain ⟨-, hstart, -⟩ := Bindings.mem_candidates.1 hc
  show Text.startsWith c.label (path.filterText.getD "") = true
  rw [TypedPath.filterText, htarget]
  split
  · rfl
  · split
    · exact hstart
    · rfl

theorem visible_complete (types : Introspector) (m : Markers) (parameters : List Parameter)
    (raw : String) :
    (complete types m parameters raw).visible = (complete types m parameters raw).items := by
  rcases complete_cases types m parameters raw with
    hnil | ⟨path, names, target, last, -, hsegments, heq⟩
  · rw [CompletionList.visible, hnil, List.filter_nil]
  · rw [heq, visible_offer hsegments]

theorem nodup_labels_complete (types : Introspector) (m : Markers) (parameters : List Parameter)
    (raw : String) : (complete types m parameters raw).labels.Nodup := by
  rcases complete_cases types m parameters raw with
    hnil | ⟨path, names, target, last, -, -, heq⟩
  · rw [CompletionList.labels, hnil]
    exact List.nodup_nil
  · rw [heq, CompletionList.labels, offer, List.map_map]
    exact last.nodup_labels_candidates target names.length

theorem kind_eq_parameter_iff {types : Introspector} {m : Markers} {parameters : List Parameter}
    {raw : String} {item : CompletionItem}
    (hitem : item ∈ (complete types m parameters raw).items) :
    item.kind = .parameter ↔
      ∃ path, tokenize? m raw = some path ∧ path.segments.length = 1 := by
  rcases complete_cases types m parameters raw with
    hnil | ⟨path, names, target, last, hpath, hsegments, heq⟩
  · rw [hnil] at hitem
    cases hitem
  · obtain ⟨-, -, -, hkind⟩ := exists_binding_of_mem hpath hsegments hitem
    have hlength : path.segments.length = names.length + 1 := by simp [hsegments]
    rw [hkind]
    constructor
    · rintro rfl
      exact ⟨path, hpath, hlength⟩
    · rintro ⟨path', hpath', hone⟩
      obtain rfl : path = path' := Option.some.inj (hpath.symm.trans hpath')
      rw [← List.length_eq_zero_iff]
      omega

end SqlMapper

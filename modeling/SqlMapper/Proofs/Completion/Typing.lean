import SqlMapper.Proofs.Completion.Offer
import SqlMapper.Proofs.Completion.Path
import SqlMapper.Sample.Users

/-!
# Completion while typing

Two completions in a row, under the standard marks. Typing on only narrows the offer down: what
is offered then was offered before, in the same order. Taking an offered name and typing a
separator behind it leads to the members of its type.

## Main definitions

* `completeAtCaret`: what is offered behind a text.

## Main statements

* `items_completeAtCaret_append`: what is offered after typing on.
* `completeAtCaret_accepted`: what is offered behind a name that was taken.
-/

namespace SqlMapper

/-- What is offered behind a text, where an editor has put its placeholder at the caret. -/
def completeAtCaret (types : Introspector) (maxDepth : Nat) (parameters : List Parameter)
    (fragment : String) : CompletionList :=
  complete types (Markers.upTo maxDepth) parameters
    (fragment ++ (Markers.upTo maxDepth).placeholder)

theorem Text.startsWith_of_append {s start more : String}
    (h : Text.startsWith s (start ++ more) = true) : Text.startsWith s start = true := by
  rw [Text.startsWith, List.isPrefixOf_iff_prefix, String.toList_append] at h
  rw [Text.startsWith, List.isPrefixOf_iff_prefix]
  exact (List.prefix_append _ _).trans h

theorem Text.not_suffix_of_endsWith_eq_false {s ending : String}
    (h : Text.endsWith s ending = false) : ¬ ending.toList <:+ s.toList := by
  intro hsuffix
  rw [Text.endsWith, List.isSuffixOf_iff_suffix.2 hsuffix] at h
  cases h

/-- A longer target has the candidates of the shorter one that begin with it. -/
theorem Bindings.candidates_append (table : Bindings) (target more : String) (depth : Nat) :
    table.candidates (target ++ more) depth =
      (table.candidates target depth).filter fun c =>
        Text.startsWith c.label (target ++ more) := by
  rw [candidates, candidates, List.filter_map, List.filter_filter]
  apply congrArg (List.map _)
  apply List.filter_congr
  intro e _
  cases hstart : Text.startsWith e.1 (target ++ more) with
  | false => simp [hstart]
  | true => simp [hstart, Text.startsWith_of_append hstart]

/-- Every binding begins with the empty text. -/
theorem Bindings.candidates_empty (table : Bindings) (depth : Nat) :
    table.candidates "" depth = table.entries.map fun e => ⟨e.1, e.2, depth⟩ := by
  rw [candidates, List.filter_eq_self.2]
  intro e _
  rfl

/-- Typing on narrows the offer down. The items after it are those of the items before it that
begin with all of the name typed so far, in the same order. -/
theorem items_completeAtCaret_append (types : Introspector) (maxDepth : Nat)
    (parameters : List Parameter) {fragment more : String} {path : TypedPath}
    (hcloser : Text.endsWith fragment "\x7d" = false)
    (hpath : pathAtCaret? maxDepth fragment = some path)
    (hmore : TypedPath.IsPlain more.toList) :
    (completeAtCaret types maxDepth parameters (fragment ++ more)).items =
      (completeAtCaret types maxDepth parameters fragment).items.filter fun item =>
        Text.startsWith item.label (path.target ++ more) := by
  have hend : ¬ ['\x7d'] <:+ fragment.toList := Text.not_suffix_of_endsWith_eq_false hcloser
  obtain ⟨names, hsegments, hmorePath⟩ := pathAtCaret?_append hend hmore hpath
  rw [completeAtCaret, completeAtCaret, items_complete_concat types parameters hmorePath rfl,
    items_complete_concat types parameters hpath hsegments]
  split
  · cases Bindings.along? types (Bindings.ofParameters parameters) names names.length with
    | none => rfl
    | some last =>
      rw [Option.elim_some, Option.elim_some, Bindings.candidates_append, List.filter_map]
      rfl
  · rfl

/-- A parameter for a user of the users sample, which can be used as `u`. -/
def userAsU : Parameter :=
  ⟨"user", "com.example.User", some ⟨some "u"⟩⟩

/-- Of the members of a user that begin with `a`, only the address begins with `ad`. -/
theorem items_completeAtCaret_append_address :
    (completeAtCaret Sample.users.introspector 3 [userAsU] ("#\x7bu.a" ++ "d")).items =
      [⟨"address", .property, "com.example.Address"⟩] := by
  have hcloser : Text.endsWith "#\x7bu.a" "\x7d" = false := by decide
  have hpath : pathAtCaret? 3 "#\x7bu.a" = some ⟨["u", "a"], true⟩ := by decide +kernel
  rw [items_completeAtCaret_append Sample.users.introspector 3 [userAsU] hcloser hpath
    (show TypedPath.IsPlain "d".toList by decide)]
  decide +kernel

/-- Behind a name of the last table, a path with an empty target has all members of the type of
that name. -/
theorem walk_behind {types : Introspector} {maxDepth : Nat} {names : List String}
    {table last : Bindings} {name typeName : String}
    (hlast : Bindings.along? types table names names.length = some last)
    (hmem : (name, typeName) ∈ last.entries) (hdepth : names.length + 2 ≤ maxDepth) :
    walk types maxDepth (names ++ [name, ""]) table =
      if types.isStructured typeName then
        (Bindings.ofMembers types typeName).entries.map fun e => ⟨e.1, e.2, names.length + 1⟩
      else [] := by
  rw [List.append_cons, walk_concat, List.length_append, List.length_singleton,
    if_pos (by omega), Bindings.along?_concat, hlast, Option.bind_some,
    Bindings.behind?_of_mem types hmem]
  split
  · rw [Option.elim_some, Bindings.candidates_empty]
  · rfl

/-- An offered name can be taken and followed. Put in place of the name being typed, with a
separator behind it, it is completed by exactly the members of its type, or by nothing if its type
has no members; only the cap on the path can forbid it. -/
theorem completeAtCaret_accepted (types : Introspector) (maxDepth : Nat)
    (parameters : List Parameter) {fragment target : String} {names : List String}
    {path : TypedPath} (hcloser : Text.endsWith fragment "\x7d" = false)
    (hpath : pathAtCaret? maxDepth fragment = some path)
    (hsegments : path.segments = names ++ [target]) :
    ∃ before, fragment = before ++ target ∧
      ∀ item ∈ (completeAtCaret types maxDepth parameters fragment).items,
        item.label ≠ "" → TypedPath.IsPlain item.label.toList → names.length + 2 ≤ maxDepth →
        if types.isStructured item.detail then
          completeAtCaret types maxDepth parameters (before ++ item.label ++ ".") =
            ⟨some "", (Bindings.ofMembers types item.detail).entries.map fun e =>
              ⟨e.1, .property, e.2⟩⟩
        else
          (completeAtCaret types maxDepth parameters (before ++ item.label ++ ".")).items = [] := by
  have hend : ¬ ['\x7d'] <:+ fragment.toList := Text.not_suffix_of_endsWith_eq_false hcloser
  obtain ⟨before, hbefore, hreplaced⟩ := exists_pathAtCaret?_replaced hend hpath hsegments
  refine ⟨before, hbefore, ?_⟩
  intro item hitem hne hplain hdepth
  -- The table in which the item was found is the one from which its name is followed.
  obtain ⟨last, hlast, hmem, -⟩ := exists_binding_of_mem hpath hsegments hitem
  have hparameters : (Bindings.ofParameters parameters).isEmpty = false := by
    rw [Bool.eq_false_iff]
    intro hempty
    rw [completeAtCaret, complete_of_isEmpty types _ _ hempty] at hitem
    cases hitem
  have hoffer : completeAtCaret types maxDepth parameters (before ++ item.label ++ ".") =
      offer ⟨names ++ [item.label, ""], true⟩
        (walk types maxDepth (names ++ [item.label, ""]) (Bindings.ofParameters parameters)) :=
    complete_of_tokenize?_eq_some types hparameters (hreplaced item.label hne hplain)
  rw [hoffer, walk_behind hlast hmem hdepth]
  split
  · simp [offer, TypedPath.filterText, TypedPath.target, Candidate.toItem]
  · rfl

/-- The address that is offered behind `u` is followed by its city, street and zip code. -/
theorem completeAtCaret_accepted_address :
    ∃ before, "#\x7bu.ad" = before ++ "ad" ∧
      completeAtCaret Sample.users.introspector 3 [userAsU] (before ++ "address" ++ ".") =
        ⟨some "", [⟨"city", .property, "java.lang.String"⟩,
          ⟨"street", .property, "java.lang.String"⟩,
          ⟨"zipCode", .property, "java.lang.String"⟩]⟩ := by
  have hcloser : Text.endsWith "#\x7bu.ad" "\x7d" = false := by decide
  have hpath : pathAtCaret? 3 "#\x7bu.ad" = some ⟨["u", "ad"], true⟩ := by decide +kernel
  obtain ⟨before, hbefore, haccepted⟩ :=
    completeAtCaret_accepted Sample.users.introspector 3 [userAsU] hcloser hpath
      (show ["u", "ad"] = ["u"] ++ ["ad"] from rfl)
  have h := haccepted ⟨"address", .property, "com.example.Address"⟩ (by decide +kernel)
    (by decide) (by decide) (by decide)
  rw [if_pos (by decide +kernel)] at h
  refine ⟨before, hbefore, ?_⟩
  rw [h]
  decide +kernel

end SqlMapper

import SqlMapper.Proofs.Chars.Join
import SqlMapper.Proofs.Completion.Segments
import SqlMapper.Proofs.Completion.Typing
import SqlMapper.Proofs.Project.Completion

/-!
# The placeholder of an editor

At a caret the placeholder is put behind the text being typed and taken off again, and what is
offered should not depend on its spelling. The placeholder without its outer blanks is looked for
first. If it is found, the blanks in front of it stay in the text; a blank at its end keeps it from
being found, and then the whole placeholder goes. So only a placeholder that begins with a blank and
ends with none leaves something behind, and what it leaves hides the text being typed.

## Main definitions

* `TypedPath.leftover`: the blanks that a placeholder leaves behind.
* `Project.withPlaceholder`: a project under another placeholder.

## Main statements

* `TypedPath.dropPlaceholder_append_self`: what is left of a text and a placeholder.
* `Project.map_items_completions?`: what is offered, by the text being typed and the blanks left.
* `Project.completions?_placeholder`: what is offered under two placeholders.
-/

namespace SqlMapper

theorem Settings.markers_of_problem?_eq_none {s : Settings} (h : s.problem? = none) :
    s.markers.trimmedPlaceholder ≠ "" ∧ s.markers.separator ≠ "" ∧ s.markers.maxDepth ≠ 0 := by
  unfold problem? at h
  grind

namespace TypedPath

/-! ### Taking a placeholder off -/

/-- The blanks of a placeholder that stay behind when it is taken off: those in front of it, unless
it ends with a blank as well. -/
def leftover (placeholder : List Char) : List Char :=
  if placeholder.getLast?.any Chars.isBlank then [] else placeholder.takeWhile Chars.isBlank

theorem leftover_of_blank_end (start : List Char) {c : Char} (hc : Chars.isBlank c = true) :
    leftover (start ++ [c]) = [] := by
  simp [leftover, hc]

theorem leftover_of_plain_end {front core : List Char} (hne : core ≠ [])
    (hfront : ∀ c ∈ front, Chars.isBlank c = true)
    (hhead : ∀ c, core.head? = some c → Chars.isBlank c = false)
    (hlast : ∀ c, core.getLast? = some c → Chars.isBlank c = false) :
    leftover (front ++ core) = front := by
  have hend : ((front ++ core).getLast?.any Chars.isBlank) = false := by
    rw [← getLast?_eq_of_isSuffix (List.suffix_append front core) hne,
      List.getLast?_eq_some_getLast hne]
    exact hlast _ (List.getLast?_eq_some_getLast hne)
  obtain ⟨c, rest, rfl⟩ := List.exists_cons_of_ne_nil hne
  rw [leftover, hend, List.takeWhile_append_of_pos hfront]
  simp [hhead c rfl]

theorem isBlank_of_mem_leftover {placeholder : List Char} {c : Char}
    (h : c ∈ leftover placeholder) : Chars.isBlank c = true := by
  unfold leftover at h
  split at h
  · simp at h
  · exact List.all_eq_true.1 List.all_takeWhile c h

theorem dropPlaceholder_append_self {m : Markers} (hm : m.trimmedPlaceholder ≠ "")
    (text : List Char) :
    (dropPlaceholder m (text ++ m.placeholder.toList)).1 =
      text ++ leftover m.placeholder.toList := by
  obtain ⟨front, back, hsplit, hfront, hback⟩ := Chars.exists_trim_between m.placeholder.toList
  have hhead : ∀ c, (Chars.trim m.placeholder.toList).head? = some c → Chars.isBlank c = false :=
    fun c => Chars.isBlank_head?_trim
  have hlast : ∀ c, (Chars.trim m.placeholder.toList).getLast? = some c →
      Chars.isBlank c = false := fun c => Chars.isBlank_getLast?_trim
  have hne : Chars.trim m.placeholder.toList ≠ [] := by
    simpa [Markers.trimmedPlaceholder, Text.trim] using hm
  unfold dropPlaceholder
  generalize Chars.trim m.placeholder.toList = core at hsplit hhead hlast hne
  rw [hsplit]
  rcases back.eq_nil_or_concat with rfl | ⟨start, c, rfl⟩
  · -- The placeholder ends with its core, which is then all that goes.
    have hcore : withoutEnd? core (text ++ (front ++ core)) = some (text ++ front) :=
      withoutEnd?_eq_some_iff.2 ⟨hne, by simp⟩
    rw [List.append_nil, hcore, leftover_of_plain_end hne hfront hhead hlast]
  · have hc : Chars.isBlank c = true := hback c (by simp)
    rw [List.concat_eq_append, ← List.append_assoc (front ++ core)]
    have hcore : withoutEnd? core (text ++ (front ++ core ++ start ++ [c])) = none := by
      apply withoutEnd?_eq_none
      intro hsuffix
      have hends := getLast?_eq_of_isSuffix hsuffix hne
      rw [← List.append_assoc, List.getLast?_concat] at hends
      rw [hlast c hends] at hc
      cases hc
    have hwhole : withoutEnd? (front ++ core ++ start ++ [c])
        (text ++ (front ++ core ++ start ++ [c])) = some text :=
      withoutEnd?_append (by simp) text
    rw [hcore, hwhole, leftover_of_blank_end _ hc, List.append_nil]

/-- Behind a blank at the end of a text nothing is being typed. -/
theorem segmentsOf_concat {m : Markers} (hm : m.Unspaced) (hsep : m.separator ≠ "") {c : Char}
    (hc : Chars.isBlank c = true) (text : List Char) : segmentsOf m (text ++ [c]) = [""] := by
  have hchars : m.separator.toList ≠ [] := by simpa using hsep
  have hcloser := dropCloser_append_cons hm hc text []
  have hnil := List.prefix_nil.1 (prefix_dropCloser m [])
  obtain ⟨front, hfront⟩ := exists_dropOpener_append_cons hm hc text []
  have hnone : ¬ m.separator.toList <:+: [c] := by
    intro hoccurs
    have hmem := not_mem_of_isBlank hm.separator hc
    obtain ⟨d, rest, hd⟩ := List.exists_cons_of_ne_nil hchars
    have hdc : d = c := by simpa using hoccurs.subset (hd ▸ List.mem_cons_self)
    rw [hd, hdc] at hmem
    simp at hmem
  have hclosed : closed m.separator.toList [c] = [c] := by
    rw [closed, if_neg]
    intro hsuffix
    exact hnone (List.isSuffixOf_iff_suffix.1 hsuffix).isInfix
  have hpieces : Chars.splitOn m.separator.toList [c] = [[c]] := by
    rw [Chars.splitOn_eq_piecesAfter hchars, Chars.piecesAfter_eq_singleton hnone]
  have htrim : Chars.trim ([c] ++ []) = [] := Chars.trim_append (by simp [hc]) (by simp)
  rw [segmentsOf, hcloser, hnil, hfront, fromLastBlank_append_cons front hc (by simp),
    names_eq_pieces, hclosed, hpieces]
  simpa using htrim

end TypedPath

open TypedPath

/-! ### What is offered -/

/-- What is offered depends on the segments only. -/
theorem items_complete_eq_walk (types : Introspector) (m : Markers) (parameters : List Parameter)
    (raw : String) :
    (complete types m parameters raw).items =
      (walk types m.maxDepth (segmentsOf m (dropPlaceholder m raw.toList).1)
        (Bindings.ofParameters parameters)).map Candidate.toItem := by
  rw [items_complete, tokenize?_eq]
  split
  · next hnil =>
    rw [hnil]
    rfl
  · rfl

theorem walk_singleton_empty (types : Introspector) {maxDepth : Nat} (h : 0 < maxDepth)
    (table : Bindings) :
    walk types maxDepth [""] table = table.entries.map fun e => ⟨e.1, e.2, 0⟩ := by
  have hwalk := walk_concat types maxDepth [] "" table
  rw [List.nil_append, List.length_nil, if_pos h] at hwalk
  rw [hwalk]
  exact table.candidates_empty 0

namespace Project

/-- The project with another placeholder in its settings. -/
def withPlaceholder (p : Project) (placeholder : String) : Project :=
  p.setSettings
    { p.settings with markers := { p.settings.markers with placeholder := placeholder } }

theorem context_cases (p : Project) (uri : FileUri) (position : Position) :
    p.context uri position = .empty (Language.ofUri uri) ∨
      ∃ document offset, p.context uri position =
        .ofDocument p.types p.settings.markers document offset := by
  unfold context
  dsimp only
  split
  · exact .inl rfl
  · cases p.registry.get? uri with
    | none => exact .inl rfl
    | some entry =>
      cases hdocument : entry.document with
      | none => simp [hdocument]
      | some document =>
        cases hoffset : entry.lines.offset? position with
        | none => simp [hdocument, hoffset]
        | some offset => exact .inr ⟨document, offset, by simp [hdocument, hoffset]⟩

/-- Where nothing can be completed there are no parameters. -/
theorem parameters_of_isEmpty {p : Project} {uri : FileUri} {position : Position}
    (h : (p.context uri position).isEmpty = true) : (p.context uri position).parameters = [] := by
  rcases p.context_cases uri position with hcontext | ⟨document, offset, hcontext⟩
  · rw [hcontext]
    rfl
  · have hlanguage : (p.context uri position).language = .xml := by
      rw [hcontext, StatementContext.ofDocument]
      split <;> rfl
    simpa [StatementContext.isEmpty, hlanguage, Language.completesParameters] using h

theorem map_items_completions? {p : Project} (hp : p.settings.markers.trimmedPlaceholder ≠ "")
    (uri : FileUri) (position : Position) :
    (p.completions? uri position).map (·.items) =
      if p.registry.contains uri then
        some ((walk p.types.introspector p.settings.markers.maxDepth
          (segmentsOf p.settings.markers ((p.context uri position).caretFragment.toList ++
            leftover p.settings.markers.placeholder.toList))
          (Bindings.ofParameters (p.context uri position).parameters)).map Candidate.toItem)
      else none := by
  cases huri : p.registry.contains uri with
  | false => simp [completions?, huri]
  | true =>
    cases hempty : (p.context uri position).isEmpty with
    | true =>
      rw [parameters_of_isEmpty hempty, walk_of_isEmpty _ _ _ rfl]
      simp [completions?, huri, hempty, CompletionList.empty]
    | false =>
      have hitems := items_complete_eq_walk p.types.introspector p.settings.markers
        (p.context uri position).parameters
        ((p.context uri position).caretFragment ++ p.settings.markers.placeholder)
      rw [String.toList_append, dropPlaceholder_append_self hp] at hitems
      simp [completions?, huri, hempty, hitems]

theorem map_items_withPlaceholder {p : Project} {placeholder : String}
    (h : (p.withPlaceholder placeholder).settings.problem? = none) (uri : FileUri)
    (position : Position) :
    ((p.withPlaceholder placeholder).completions? uri position).map (·.items) =
      if p.registry.contains uri then
        some ((walk p.types.introspector p.settings.markers.maxDepth
          (segmentsOf p.settings.markers ((p.context uri position).caretFragment.toList ++
            leftover placeholder.toList))
          (Bindings.ofParameters (p.context uri position).parameters)).map Candidate.toItem)
      else none :=
  -- No other part of the answer looks at the placeholder.
  map_items_completions? (Settings.markers_of_problem?_eq_none h).1 uri position

/-- What is offered does not depend on the placeholder as long as it leaves the same blanks behind,
which are none unless it begins with a blank and ends with another character. If some are left, what
is being typed makes no difference: the names of all parameters are offered everywhere. -/
theorem completions?_placeholder (p : Project) {first second : String}
    (hfirst : (p.withPlaceholder first).settings.problem? = none)
    (hsecond : (p.withPlaceholder second).settings.problem? = none) (uri : FileUri)
    (position : Position) :
    (leftover first.toList = leftover second.toList →
      ((p.withPlaceholder first).completions? uri position).map (·.items) =
        ((p.withPlaceholder second).completions? uri position).map (·.items)) ∧
    (leftover first.toList ≠ [] → p.settings.markers.Unspaced →
      ∀ list ∈ (p.withPlaceholder first).completions? uri position,
        list.labels = (Bindings.ofParameters (p.context uri position).parameters).keys) := by
  have hitems := map_items_withPlaceholder hfirst uri position
  constructor
  · intro hleft
    rw [hitems, map_items_withPlaceholder hsecond, hleft]
  · intro hleft hm list hlist
    obtain ⟨-, hsep, hdepth⟩ := Settings.markers_of_problem?_eq_none hfirst
    obtain ⟨start, c, hstart⟩ : ∃ start c, leftover first.toList = start ++ [c] :=
      ⟨_, _, (List.dropLast_append_getLast hleft).symm⟩
    have hmem : c ∈ leftover first.toList := by simp [hstart]
    have hc := isBlank_of_mem_leftover hmem
    have hpos : 0 < p.settings.markers.maxDepth := Nat.pos_of_ne_zero hdepth
    rw [Option.mem_def.1 hlist, Option.map_some, hstart, ← List.append_assoc,
      segmentsOf_concat hm hsep hc, walk_singleton_empty _ hpos] at hitems
    split at hitems
    · rw [CompletionList.labels, Option.some.inj hitems, Table.keys, List.map_map, List.map_map]
      rfl
    · cases hitems

/-- Nothing that can be used begins with `f`, so that nothing is offered behind it under two
placeholders without blanks in front; under one with such a blank every name is. -/
theorem completions?_placeholder_leadingBlank :
    (sharedName.withPlaceholder "X").settings.problem? = none ∧
      (sharedName.withPlaceholder " X").settings.problem? = none ∧
      ((sharedName.withPlaceholder "X").completions? ⟨"M.xml"⟩ ⟨0, 13⟩).map (·.items) = some [] ∧
      ((sharedName.withPlaceholder " Y ").completions? ⟨"M.xml"⟩ ⟨0, 13⟩).map (·.items) = some [] ∧
      ∃ list ∈ (sharedName.withPlaceholder " X").completions? ⟨"M.xml"⟩ ⟨0, 13⟩,
        list.labels = ["u", "unit"] := by
  have hplain : (sharedName.withPlaceholder "X").settings.problem? = none := by decide +kernel
  have hboth : (sharedName.withPlaceholder " Y ").settings.problem? = none := by decide +kernel
  have hlead : (sharedName.withPlaceholder " X").settings.problem? = none := by decide +kernel
  have hitems : ((sharedName.withPlaceholder "X").completions? ⟨"M.xml"⟩ ⟨0, 13⟩).map
      (·.items) = some [] := by
    decide +kernel
  have hsame := (completions?_placeholder sharedName hplain hboth ⟨"M.xml"⟩ ⟨0, 13⟩).1 (by decide)
  have hall := (completions?_placeholder sharedName hlead hplain ⟨"M.xml"⟩ ⟨0, 13⟩).2 (by decide)
    (unspaced_upTo 32)
  obtain ⟨list, hlist⟩ : ∃ list,
      (sharedName.withPlaceholder " X").completions? ⟨"M.xml"⟩ ⟨0, 13⟩ = some list :=
    Option.isSome_iff_exists.1 (by decide +kernel)
  refine ⟨hplain, hlead, hitems, hsame.symm.trans hitems, list, hlist, ?_⟩
  rw [hall list hlist]
  decide +kernel

end Project

end SqlMapper

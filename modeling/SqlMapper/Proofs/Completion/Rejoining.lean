import SqlMapper.Proofs.Chars.Join
import SqlMapper.Proofs.Completion.Segments

/-!
# Paths written out again

The names of a path, joined by the separator, are a text again, and the path of that text is the
same. A separator may overlap with itself, so the names do not come back for being free of
separators alone: each of them but the last had a separator behind it when the text was cut, and it
was the first one from the start of the name on. Leaving out the empty pieces between names does not
change that, and the blank behind a separator at the end is put there both times.

## Main definitions

* `TypedPath.Rejoins`: names that joining and cutting give back.
* `Markers.Bare`: a text without a mark at its ends.

## Main statements

* `TypedPath.names_intercalate`: such names come back.
* `TypedPath.rejoins_of_names`: the names of a path are such names.
* `tokenize?_rejoined`: a path is found again in its own text.
-/

namespace SqlMapper

/-- No mark that is taken off the ends of a text stands there. -/
structure Markers.Bare (m : Markers) (text : String) : Prop where
  placeholder : m.placeholder ≠ "" → Text.endsWith text m.placeholder = false
  trimmedPlaceholder :
    m.trimmedPlaceholder ≠ "" → Text.endsWith text m.trimmedPlaceholder = false
  closer : m.closer ≠ "" → Text.endsWith text m.closer = false
  opener : m.opener ≠ "" → Text.startsWith text m.opener = false
  textOpener : m.textOpener ≠ "" → Text.startsWith text m.textOpener = false

namespace TypedPath

/-- The names `front`, with separators behind them, and the name `last`, as cutting a text leaves
them. -/
structure Rejoins (separator : List Char) (front : List (List Char)) (last : List Char) :
    Prop where
  front_ne_nil : ∀ name ∈ front, name ≠ []
  /-- The separator behind a name is the first one from its start on. -/
  front_apart : ∀ name ∈ front, ¬ separator <:+: name ++ separator.dropLast
  last_apart : ¬ separator <:+: last
  last_ne_nil : front = [] → last ≠ []
  front_unspaced : ∀ name ∈ front, ∀ c ∈ name, Chars.isBlank c = false
  last_unspaced : ∀ c ∈ last, Chars.isBlank c = false

section Joined

variable {separator : List Char}

theorem intercalate_concat_append (front : List (List Char)) (last more : List Char) :
    separator.intercalate (front ++ [last]) ++ more =
      separator.intercalate (front ++ [last ++ more]) := by
  induction front with
  | nil => simp
  | cons name front ih =>
    rw [List.cons_append, List.cons_append, List.intercalate_cons_of_ne_nil (by simp),
      List.intercalate_cons_of_ne_nil (by simp), List.append_assoc, ih]

theorem suffix_intercalate_concat {front : List (List Char)} (hne : front ≠ [])
    (last : List Char) : separator ++ last <:+ separator.intercalate (front ++ [last]) := by
  induction front with
  | nil => exact absurd rfl hne
  | cons name front ih =>
    rw [List.cons_append, List.intercalate_cons_of_ne_nil (by simp)]
    cases front with
    | nil =>
      rw [List.nil_append, List.intercalate_singleton, List.append_assoc]
      exact List.suffix_append _ _
    | cons next front => exact (ih (by simp)).trans (List.suffix_append _ _)

theorem isBlank_of_mem_intercalate (hplain : ∀ c ∈ separator, Chars.isBlank c = false)
    {names : List (List Char)} (h : ∀ name ∈ names, ∀ c ∈ name, Chars.isBlank c = false) :
    ∀ c ∈ separator.intercalate names, Chars.isBlank c = false := by
  induction names with
  | nil => simp
  | cons name names ih =>
    obtain ⟨hname, hrest⟩ := List.forall_mem_cons.1 h
    cases names with
    | nil => simpa using hname
    | cons next names =>
      rw [List.intercalate_cons_cons]
      intro c hc
      rcases List.mem_append.1 hc with hc | hc
      · exact (List.mem_append.1 hc).elim (hname c) (hplain c)
      · exact ih hrest c hc

theorem map_trim_of_unspaced {names : List (List Char)}
    (h : ∀ name ∈ names, ∀ c ∈ name, Chars.isBlank c = false) :
    names.map Chars.trim = names := by
  refine (List.map_congr_left fun name hname => ?_).trans (List.map_id names)
  exact Chars.trim_append (List.forall_mem_nil _) (h name hname)

variable (hsep : separator ≠ []) (hplain : ∀ c ∈ separator, Chars.isBlank c = false)
  {front : List (List Char)} {last : List Char}
include hsep hplain

/-- Names that have been cut apart once are cut apart in the same way when they are joined. -/
theorem names_intercalate (h : Rejoins separator front last) :
    names separator (separator.intercalate (front ++ [last])) = front ++ [last] := by
  have hfront : ((front.filter fun piece => !piece.isEmpty).map Chars.trim) = front := by
    have hkept : (front.filter fun piece => !piece.isEmpty) = front := by
      rw [List.filter_eq_self]
      intro name hname
      simpa using h.front_ne_nil name hname
    rw [hkept, map_trim_of_unspaced h.front_unspaced]
  rw [names_eq_pieces]
  by_cases hend : separator <:+ separator.intercalate (front ++ [last])
  · -- The blank goes to the last name, where it cannot complete a separator.
    have hlast : ¬ separator <:+: last ++ [' '] := by
      intro hoccurs
      refine h.last_apart (Chars.infix_of_infix_append hsep ?_ hoccurs)
      intro hmem
      have hblank := hplain _ (List.getLast_mem hsep)
      rw [List.mem_singleton.1 hmem] at hblank
      exact absurd hblank (by decide)
    have htrim : Chars.trim (last ++ [' ']) = last :=
      Chars.trim_between (List.forall_mem_nil _) h.last_unspaced
        (List.forall_mem_singleton.2 (by decide))
    rw [closed, if_pos (List.isSuffixOf_iff_suffix.2 hend), intercalate_concat_append,
      Chars.splitOn_intercalate hsep h.front_apart hlast, List.filter_append, List.map_append,
      hfront, List.filter_cons_of_pos (by simp), List.filter_nil, List.map_singleton, htrim]
  · have hlast : last ≠ [] := by
      rintro rfl
      have hne : front ≠ [] := fun hnil => h.last_ne_nil hnil rfl
      have hsuffix : separator ++ [] <:+ separator.intercalate (front ++ [[]]) :=
        suffix_intercalate_concat hne []
      rw [List.append_nil] at hsuffix
      exact hend hsuffix
    have htrim : Chars.trim last = last :=
      Chars.trim_append (List.forall_mem_nil _) h.last_unspaced
    rw [closed, if_neg (by simpa using hend),
      Chars.splitOn_intercalate hsep h.front_apart h.last_apart, List.filter_append,
      List.map_append, hfront, List.filter_cons_of_pos (by simpa using hlast), List.filter_nil,
      List.map_singleton, htrim]

end Joined

section Cut

variable {separator text : List Char} (htext : ∀ c ∈ text.tail, Chars.isBlank c = false)
  (hsep : separator ≠ [])
include htext hsep

/-- A piece with a separator behind it has blanks in front only, so trimming leaves its end. -/
theorem trim_suffix_of_mem_dropLast {piece : List Char}
    (h : piece ∈ (Chars.splitOn separator (closed separator text)).dropLast) :
    Chars.trim piece <:+ piece := by
  have hoccurs : piece ++ separator <:+: closed separator text :=
    Chars.intercalate_splitOn hsep (closed separator text) ▸ Chars.infix_append_of_mem_dropLast h
  have hplain : ∀ c ∈ piece.tail, Chars.isBlank c = false := by
    intro c hc
    refine isBlank_inner_closed htext ((Chars.sublist_inner hoccurs.sublist).subset ?_)
    have hne : piece ≠ [] := by
      rintro rfl
      simp at hc
    rw [List.tail_append_of_ne_nil hne, List.dropLast_append_of_ne_nil hsep]
    exact List.mem_append_left _ hc
  obtain ⟨blanks, hpiece, -⟩ := Chars.exists_blanks_append_trim hplain
  exact ⟨blanks, hpiece.symm⟩

/-- The names in a text that does not begin with an empty one can be joined and cut again. -/
theorem rejoins_of_names {front : List (List Char)} {last : List Char}
    (hnames : names separator text = front ++ [last])
    (hfirst : (names separator text).head? ≠ some []) : Rejoins separator front last := by
  have hmem : ∀ name ∈ front ++ [last], name ∈ names separator text := by
    intro name hname
    rwa [hnames]
  have hblank : ∀ name ∈ front ++ [last], ∀ c ∈ name, Chars.isBlank c = false := by
    intro name hname c hc
    exact isBlank_of_mem_names htext hsep (hmem name hname) hc
  constructor
  case front_ne_nil =>
    intro name hname
    cases front with
    | nil => simp at hname
    | cons first front =>
      rcases List.mem_cons.1 hname with rfl | hinner
      · rintro rfl
        simp [hnames] at hfirst
      · refine ne_nil_of_mem_inner_names htext hsep ?_
        simpa [hnames] using hinner
  case front_apart =>
    intro name hname
    have hdropped : name ∈ (names separator text).dropLast := by
      simpa [hnames] using hname
    rw [names_eq_pieces, ← List.map_dropLast] at hdropped
    obtain ⟨piece, hpiece, rfl⟩ := List.mem_map.1 hdropped
    -- Leaving out empty pieces leaves no piece without the separator behind it.
    have hkept : piece ∈ (Chars.splitOn separator (closed separator text)).dropLast :=
      (Chars.sublist_dropLast List.filter_sublist).subset hpiece
    have hend := trim_suffix_of_mem_dropLast htext hsep hkept
    intro hoccurs
    refine Chars.not_infix_of_mem_dropLast_splitOn hsep hkept (hoccurs.trans ?_)
    obtain ⟨blanks, hblanks⟩ := hend
    exact ⟨blanks, [], by rw [List.append_nil, ← List.append_assoc, hblanks]⟩
  case last_apart => exact not_infix_of_mem_names hsep (hmem last (by simp))
  case last_ne_nil =>
    rintro rfl rfl
    simp [hnames] at hfirst
  case front_unspaced => exact fun name hname => hblank name (List.mem_append_left _ hname)
  case last_unspaced => exact hblank last (by simp)

end Cut

/-! ### Texts without marks at their ends -/

theorem withoutEnd?_of_endsWith {text ending : String}
    (h : ending ≠ "" → Text.endsWith text ending = false) :
    withoutEnd? ending.toList text.toList = none := by
  by_cases hne : ending = ""
  · rw [hne]
    rfl
  · have hsuffix := h hne
    rw [Text.endsWith, Bool.eq_false_iff, ne_eq, List.isSuffixOf_iff_suffix] at hsuffix
    exact withoutEnd?_eq_none hsuffix

theorem withoutStart?_of_startsWith {text start : String}
    (h : start ≠ "" → Text.startsWith text start = false) :
    withoutStart? start.toList text.toList = none := by
  by_cases hne : start = ""
  · rw [hne]
    rfl
  · rw [withoutStart?, if_neg (by simpa using hne), ← Option.not_isSome_iff_eq_none,
      List.isSome_isPrefixOf?_eq_isPrefixOf, Bool.not_eq_true]
    exact h hne

section Bare

variable {m : Markers} {text : String} (h : m.Bare text)
include h

theorem dropPlaceholder_of_bare : dropPlaceholder m text.toList = (text.toList, false) := by
  have htrimmed := withoutEnd?_of_endsWith h.trimmedPlaceholder
  rw [Markers.trimmedPlaceholder, Text.toList_trim] at htrimmed
  rw [dropPlaceholder, htrimmed, withoutEnd?_of_endsWith h.placeholder]

theorem dropCloser_of_bare : dropCloser m text.toList = (text.toList, false) := by
  rw [dropCloser, withoutEnd?_of_endsWith h.closer]

theorem dropOpener_of_bare : dropOpener m text.toList = text.toList := by
  rw [dropOpener, withoutStart?_of_startsWith h.opener, withoutStart?_of_startsWith h.textOpener]
  rfl

/-- A text without marks and blanks is cut at its separators only. -/
theorem segmentsOf_of_bare (hplain : ∀ c ∈ text.toList, Chars.isBlank c = false) :
    segmentsOf m text.toList = (names m.separator.toList text.toList).map String.ofList := by
  have hwhole : fromLastBlank text.toList = text.toList := fromLastBlank_append [] hplain
  rw [segmentsOf, dropCloser_of_bare h, dropOpener_of_bare h, hwhole]

end Bare

end TypedPath

open TypedPath

/-- A path is cut out of a text in which only the first character can be blank. -/
theorem exists_names_of_tokenize? {m : Markers} {raw : String} {path : TypedPath}
    (h : tokenize? m raw = some path) :
    ∃ text : List Char, (∀ c ∈ text.tail, Chars.isBlank c = false) ∧
      names m.separator.toList text ≠ [] ∧
      path.segments = (names m.separator.toList text).map String.ofList := by
  obtain ⟨hne, rfl⟩ := (tokenize?_eq_some_iff rfl).1 h
  refine ⟨_, fun c hc => not_isBlank_of_mem_tail hc, fun hnil => hne ?_, rfl⟩
  rw [segmentsOf, hnil, List.map_nil]

/-- A path that does not begin with an empty name is the path of its own text as well: joined by the
separator, its names come back one for one, an empty last name included. The text must not be
mistaken for one with marks around the path. -/
theorem tokenize?_rejoined {m : Markers} (hsep : m.separator ≠ "")
    (hplain : ∀ c ∈ m.separator.toList, Chars.isBlank c = false) {raw : String}
    {path : TypedPath} (hpath : tokenize? m raw = some path)
    (hfirst : path.segments.head? ≠ some "")
    (hbare : m.Bare (Text.join m.separator path.segments)) :
    tokenize? m (Text.join m.separator path.segments) = some ⟨path.segments, false⟩ := by
  have hchars : m.separator.toList ≠ [] := by simpa using hsep
  obtain ⟨text, htext, hne, hsegments⟩ := exists_names_of_tokenize? hpath
  rw [hsegments] at hfirst hbare ⊢
  obtain ⟨front, last, hnames⟩ := (names m.separator.toList text).eq_nil_or_concat.resolve_left hne
  rw [List.concat_eq_append] at hnames
  have hrejoins : Rejoins m.separator.toList front last := by
    refine rejoins_of_names htext hchars hnames fun hhead => hfirst ?_
    rw [List.head?_map, hhead]
    rfl
  have hjoined : (Text.join m.separator ((names m.separator.toList text).map String.ofList)).toList =
      m.separator.toList.intercalate (names m.separator.toList text) := by
    simp [Text.toList_join, Function.comp_def]
  have hunspaced : ∀ c ∈ (Text.join m.separator
      ((names m.separator.toList text).map String.ofList)).toList, Chars.isBlank c = false := by
    rw [hjoined]
    exact isBlank_of_mem_intercalate hplain fun name hname c hc =>
      isBlank_of_mem_names htext hchars hname hc
  have hback : names m.separator.toList
      (m.separator.toList.intercalate (names m.separator.toList text)) =
        names m.separator.toList text := by
    rw [hnames, names_intercalate hchars hplain hrejoins]
  rw [tokenize?_eq_some_iff (dropPlaceholder_of_bare hbare), dropCloser_of_bare hbare,
    segmentsOf_of_bare hbare hunspaced, hjoined, hback]
  exact ⟨by simpa using hne, rfl⟩

/-- Separators that overlap, an empty piece that is left out and an empty name at the end. -/
theorem tokenize?_rejoined_colons :
    tokenize? { Markers.standard with separator := "::" }
        "#\x7buser:::::name::IntellijIdeaRulezzz " = some ⟨["user", ":name", ""], true⟩ ∧
      tokenize? { Markers.standard with separator := "::" } "user:::name::" =
        some ⟨["user", ":name", ""], false⟩ := by
  have hpath : tokenize? { Markers.standard with separator := "::" }
      "#\x7buser:::::name::IntellijIdeaRulezzz " = some ⟨["user", ":name", ""], true⟩ := by
    decide +kernel
  have hagain := tokenize?_rejoined (by decide) (isBlank_of_all (by decide)) hpath (by decide)
    ⟨by decide, by decide, by decide, by decide, by decide⟩
  exact ⟨hpath, hagain⟩

end SqlMapper

import SqlMapper.Proofs.Chars.Pieces
import SqlMapper.Proofs.Completion.Path

/-!
# The segments of a path

Whatever the marks around a path are, its names come out in one shape. Before a text is cut at its
separators, blanks can stand at its ends only: one that everything before it has been cut away from,
and one that is put behind a separator at the end. So a name is empty only as the first or the last
one, and no name has a blank or a separator in it.

## Main definitions

* `TypedPath.closed`: a text as it is cut at its separators.
* `TypedPath.segmentsOf`: the names in a text without placeholder.

## Main statements

* `tokenize?_eq`: the path at the end of a text, by its segments.
* `tokenize?_normal`: the shape of a path.
-/

namespace SqlMapper

namespace TypedPath

/-- A text as it is cut at its separators: a blank behind a separator at the end keeps the empty name
there. -/
def closed (separator text : List Char) : List Char :=
  if separator.isSuffixOf text then text ++ [' '] else text

theorem names_eq_pieces (separator text : List Char) :
    names separator text =
      ((Chars.splitOn separator (closed separator text)).filter fun piece =>
        !piece.isEmpty).map Chars.trim :=
  rfl

/-- The names in a text from which a placeholder has been taken off. -/
def segmentsOf (m : Markers) (text : List Char) : List String :=
  (names m.separator.toList (fromLastBlank (dropOpener m (dropCloser m text).1))).map String.ofList

section Names

variable {separator text : List Char} (htext : ∀ c ∈ text.tail, Chars.isBlank c = false)
include htext

theorem isBlank_inner_closed {c : Char} (hc : c ∈ (closed separator text).tail.dropLast) :
    Chars.isBlank c = false := by
  unfold closed at hc
  split at hc
  · cases text with
    | nil => simp at hc
    | cons first rest => exact htext c (by simpa using hc)
  · exact htext c (List.dropLast_subset _ hc)

variable (hsep : separator ≠ [])
include hsep

theorem isBlank_of_mem_names {name : List Char} (hname : name ∈ names separator text) {c : Char}
    (hc : c ∈ name) : Chars.isBlank c = false := by
  rw [names_eq_pieces, List.mem_map] at hname
  obtain ⟨piece, hpiece, rfl⟩ := hname
  have hoccurs := Chars.infix_of_mem_splitOn hsep (List.mem_of_mem_filter hpiece)
  refine Chars.isBlank_of_mem_trim (fun d hd => ?_) hc
  exact isBlank_inner_closed htext ((Chars.sublist_inner hoccurs.sublist).subset hd)

/-- A name with names around it comes from a piece without blanks, which was not empty. -/
theorem ne_nil_of_mem_inner_names {name : List Char}
    (hname : name ∈ (names separator text).tail.dropLast) : name ≠ [] := by
  rw [names_eq_pieces, ← List.map_tail, ← List.map_dropLast, List.mem_map] at hname
  obtain ⟨piece, hpiece, rfl⟩ := hname
  have hne : piece ≠ [] := by
    have hmem := List.mem_of_mem_tail (List.dropLast_subset _ hpiece)
    simpa using (List.mem_filter.1 hmem).2
  have hplain : ∀ c ∈ piece, Chars.isBlank c = false := by
    intro c hc
    have hinner := (Chars.sublist_inner List.filter_sublist).subset hpiece
    exact isBlank_inner_closed htext (Chars.mem_inner_of_mem_splitOn hsep hinner hc)
  have htrim : Chars.trim ([] ++ piece) = piece := Chars.trim_append (by simp) hplain
  rw [List.nil_append] at htrim
  rwa [htrim]

end Names

theorem not_infix_of_mem_names {separator text : List Char} (hsep : separator ≠ [])
    {name : List Char} (hname : name ∈ names separator text) : ¬ separator <:+: name := by
  rw [names_eq_pieces, List.mem_map] at hname
  obtain ⟨piece, hpiece, rfl⟩ := hname
  intro hoccurs
  obtain ⟨front, back, hpieceEq, -⟩ := Chars.exists_trim_between piece
  have hwithin : Chars.trim piece <:+: piece := ⟨front, back, hpieceEq.symm⟩
  exact Chars.not_infix_of_mem_splitOn hsep (List.mem_of_mem_filter hpiece)
    (hoccurs.trans hwithin)

/-! ### Marks without blanks -/

theorem head?_eq_of_isPrefix {part text : List Char} (h : part <+: text) (hne : part ≠ []) :
    part.head? = text.head? := by
  obtain ⟨rest, rfl⟩ := h
  rw [List.head?_append_of_ne_nil part hne]

theorem getLast?_eq_of_isSuffix {part text : List Char} (h : part <:+ text) (hne : part ≠ []) :
    part.getLast? = text.getLast? := by
  obtain ⟨rest, rfl⟩ := h
  rw [List.getLast?_append_of_ne_nil rest hne]

theorem isBlank_of_all {mark : List Char} (h : (mark.all fun c => !Chars.isBlank c) = true) :
    ∀ c ∈ mark, Chars.isBlank c = false := by
  simpa using h

theorem not_mem_of_isBlank {mark : List Char} (hmark : ∀ d ∈ mark, Chars.isBlank d = false)
    {c : Char} (hc : Chars.isBlank c = true) : c ∉ mark := by
  intro hmem
  rw [hmark c hmem] at hc
  cases hc

theorem withoutEnd?_eq_some_iff {ending text rest : List Char} :
    withoutEnd? ending text = some rest ↔ ending ≠ [] ∧ rest ++ ending = text := by
  by_cases hnil : ending = []
  · simp [withoutEnd?, hnil]
  · simp [withoutEnd?, hnil, List.isSuffixOf?_eq_some_iff_append_eq]

theorem prefix_dropPlaceholder (m : Markers) (text : List Char) :
    (dropPlaceholder m text).1 <+: text := by
  unfold dropPlaceholder
  split
  · next hrest => exact ⟨_, (withoutEnd?_eq_some_iff.1 hrest).2⟩
  · split
    · next hrest => exact ⟨_, (withoutEnd?_eq_some_iff.1 hrest).2⟩
    · exact List.prefix_rfl

theorem prefix_dropCloser (m : Markers) (text : List Char) : (dropCloser m text).1 <+: text := by
  unfold dropCloser
  split
  · next hrest => exact ⟨_, (withoutEnd?_eq_some_iff.1 hrest).2⟩
  · exact List.prefix_rfl

theorem suffix_of_suffix_append_cons {ending front text : List Char} {c : Char} (hc : c ∉ ending)
    (h : ending <:+ front ++ c :: text) : ending <:+ text := by
  by_cases hlength : ending.length ≤ text.length
  · have htext : text <:+ front ++ c :: text :=
      (List.suffix_cons c text).trans (List.suffix_append front (c :: text))
    exact List.suffix_of_suffix_length_le h htext hlength
  · -- An ending that is longer than the text has the character in front of it as well.
    have hcons : c :: text <:+ ending :=
      List.suffix_of_suffix_length_le (List.suffix_append front (c :: text)) h
        (by rw [List.length_cons]; omega)
    exact absurd (hcons.subset List.mem_cons_self) hc

theorem withoutEnd?_append_cons {ending : List Char} {c : Char} (hc : c ∉ ending)
    (front text : List Char) :
    withoutEnd? ending (front ++ c :: text) =
      (withoutEnd? ending text).map (front ++ c :: ·) := by
  cases hrest : withoutEnd? ending text with
  | none =>
    rw [Option.map_none, Option.eq_none_iff_forall_ne_some]
    intro rest hsome
    obtain ⟨hne, htext⟩ := withoutEnd?_eq_some_iff.1 hsome
    obtain ⟨shorter, hshorter⟩ := suffix_of_suffix_append_cons hc ⟨rest, htext⟩
    rw [withoutEnd?_eq_some_iff.2 ⟨hne, hshorter⟩] at hrest
    cases hrest
  | some rest =>
    obtain ⟨hne, rfl⟩ := withoutEnd?_eq_some_iff.1 hrest
    rw [Option.map_some, withoutEnd?_eq_some_iff]
    exact ⟨hne, by simp⟩

theorem exists_of_withoutStart?_append_cons {start front text rest : List Char} {c : Char}
    (hc : c ∉ start) (h : withoutStart? start (front ++ c :: text) = some rest) :
    ∃ front', rest = front' ++ c :: text := by
  unfold withoutStart? at h
  split at h
  · cases h
  · rw [List.isPrefixOf?_eq_some_iff_append_eq] at h
    rcases List.append_eq_append_iff.1 h with ⟨more, hfront, hrest⟩ | ⟨more, rfl, hrest⟩
    · exact ⟨more, hrest⟩
    · cases more with
      | nil => exact ⟨[], by simpa using hrest.symm⟩
      | cons d more =>
        obtain ⟨rfl, -⟩ : c = d ∧ _ := by simpa using hrest
        simp at hc

end TypedPath

/-- No mark around or within a path has a blank in it. -/
structure Markers.Unspaced (m : Markers) : Prop where
  opener : ∀ c ∈ m.opener.toList, Chars.isBlank c = false
  textOpener : ∀ c ∈ m.textOpener.toList, Chars.isBlank c = false
  closer : ∀ c ∈ m.closer.toList, Chars.isBlank c = false
  separator : ∀ c ∈ m.separator.toList, Chars.isBlank c = false

namespace TypedPath

theorem unspaced_upTo (maxDepth : Nat) : (Markers.upTo maxDepth).Unspaced where
  opener := by rw [opener_upTo]; exact isBlank_of_all (by decide)
  textOpener := by rw [textOpener_upTo]; exact isBlank_of_all (by decide)
  closer := by rw [closer_upTo]; exact isBlank_of_all (by decide)
  separator := by rw [separator_upTo]; exact isBlank_of_all (by decide)

section Unspaced

variable {m : Markers} (hm : m.Unspaced) {c : Char} (hc : Chars.isBlank c = true)
include hm hc

theorem dropCloser_append_cons (front text : List Char) :
    dropCloser m (front ++ c :: text) =
      (front ++ c :: (dropCloser m text).1, (dropCloser m text).2) := by
  rw [dropCloser, dropCloser, withoutEnd?_append_cons (not_mem_of_isBlank hm.closer hc)]
  cases withoutEnd? m.closer.toList text <;> rfl

/-- A mark in front is taken off before the blank. -/
theorem exists_dropOpener_append_cons (front text : List Char) :
    ∃ front', dropOpener m (front ++ c :: text) = front' ++ c :: text := by
  unfold dropOpener
  split
  · next rest hrest =>
    exact exists_of_withoutStart?_append_cons (not_mem_of_isBlank hm.opener hc) hrest
  · cases hrest : withoutStart? m.textOpener.toList (front ++ c :: text) with
    | none => exact ⟨front, rfl⟩
    | some rest =>
      exact exists_of_withoutStart?_append_cons (not_mem_of_isBlank hm.textOpener hc) hrest

end Unspaced

end TypedPath

open TypedPath

theorem tokenize?_eq (m : Markers) (raw : String) :
    tokenize? m raw =
      if segmentsOf m (dropPlaceholder m raw.toList).1 = [] then none
      else some ⟨segmentsOf m (dropPlaceholder m raw.toList).1,
        (dropPlaceholder m raw.toList).2 ||
          (dropCloser m (dropPlaceholder m raw.toList).1).2⟩ := by
  unfold tokenize? segmentsOf
  dsimp only
  split
  · next hnil => rw [hnil, List.map_nil, if_pos rfl]
  · next hne => rw [if_neg fun hnil => hne (List.map_eq_nil_iff.1 hnil)]

theorem tokenize?_eq_some_iff {m : Markers} {raw : String} {text : List Char} {narrows : Bool}
    (hraw : dropPlaceholder m raw.toList = (text, narrows)) {path : TypedPath} :
    tokenize? m raw = some path ↔
      segmentsOf m text ≠ [] ∧ path = ⟨segmentsOf m text, narrows || (dropCloser m text).2⟩ := by
  rw [tokenize?_eq, hraw]
  split
  · next hnil => simp [hnil]
  · next hne => simp [hne, eq_comm]

/-- Every path has the same shape, whatever the marks are and the text they stand in. It has a
name; no name has a blank in it or a separator; and a name is empty only at one of its ends. -/
theorem tokenize?_normal {m : Markers} (hsep : m.separator ≠ "") {raw : String} {path : TypedPath}
    (h : tokenize? m raw = some path) :
    path.segments ≠ [] ∧
      (∀ name ∈ path.segments, (∀ c ∈ name.toList, Chars.isBlank c = false) ∧
        ¬ m.separator.toList <:+: name.toList) ∧
      ∀ name ∈ path.segments.tail.dropLast, name ≠ "" := by
  have hchars : m.separator.toList ≠ [] := by simpa using hsep
  obtain ⟨hne, rfl⟩ := (tokenize?_eq_some_iff rfl).1 h
  refine ⟨hne, ?_, ?_⟩
  · intro name hname
    obtain ⟨chars, hmem, rfl⟩ := List.mem_map.1 hname
    rw [String.toList_ofList]
    refine ⟨fun c hc => ?_, not_infix_of_mem_names hchars hmem⟩
    exact isBlank_of_mem_names (fun d hd => not_isBlank_of_mem_tail hd) hchars hmem hc
  · intro name hname
    rw [segmentsOf, ← List.map_tail, ← List.map_dropLast] at hname
    obtain ⟨chars, hmem, rfl⟩ := List.mem_map.1 hname
    have hinner := ne_nil_of_mem_inner_names (fun d hd => not_isBlank_of_mem_tail hd) hchars hmem
    simpa using hinner

/-- A separator that overlaps with itself, with blanks, three of its characters in a row and an empty
piece around it. -/
theorem tokenize?_normal_doubleColon :
    tokenize? { Markers.standard with separator := "::" } "and :::a::::b::" =
        some ⟨["", ":a", "b", ""], false⟩ ∧
      (∀ name ∈ ["", ":a", "b", ""], ¬ "::".toList <:+: name.toList) ∧
      ∀ name ∈ [":a", "b"], name ≠ "" := by
  have hpath : tokenize? { Markers.standard with separator := "::" } "and :::a::::b::" =
      some ⟨["", ":a", "b", ""], false⟩ := by
    decide +kernel
  obtain ⟨-, hnames, hinner⟩ := tokenize?_normal (by decide) hpath
  exact ⟨hpath, fun name hname => (hnames name hname).2, hinner⟩

end SqlMapper

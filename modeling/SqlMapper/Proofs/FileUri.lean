import SqlMapper.FileUri
import SqlMapper.Proofs.Path

/-!
# Uris of paths

A scheme in front of a path, with or without a slash between the two, adds pieces in front of it.
They are neither the last name of the path nor do they have an extension, so that the language of
a file can be read off its path and off its uri alike. An absolute path without a scheme is all
that stands behind the scheme of its uri.

## Main statements

* `Path.extension?_scheme`, `Path.extension?_absolute`: pieces in front of a path.
* `FileUri.ofPath_injOn`: absolute paths with the same uri are the same text.
* `Language.ofUri_ofPath`: the language and the identity of a path and of its uri.
-/

namespace SqlMapper

/-! ### Extensions behind a scheme -/

namespace Path

theorem fileName?_absolute (rest : String) : fileName? ("/" ++ rest) = fileName? rest := by
  show fileName? ("" ++ "/" ++ rest) = fileName? rest
  have hfront : (pieces "").filter significant = [] := by decide
  rw [fileName?_append, hfront, List.getLast?_nil, Option.or_none, fileName?_eq]

theorem extension?_absolute (rest : String) : extension? ("/" ++ rest) = extension? rest := by
  unfold extension?
  rw [fileName?_absolute]

theorem fileName?_scheme_eq_some_iff {rest name : String} (hname : name ≠ "file:") :
    fileName? (FileUri.scheme ++ rest) = some name ↔ fileName? rest = some name := by
  have hscheme : FileUri.scheme ++ rest = "file:/" ++ "/" ++ rest := rfl
  have hfront : (pieces "file:/").filter significant = ["file:"] := by decide
  rw [hscheme, fileName?_append, hfront, fileName?_eq]
  cases ((pieces rest).filter significant).getLast? with
  | some last => rfl
  | none =>
    -- Nothing significant follows: the scheme is the last name then, but not this one.
    show some "file:" = some name ↔ none = some name
    simp [Ne.symm hname]

theorem extension?_scheme (rest : String) :
    extension? (FileUri.scheme ++ rest) = extension? rest := by
  ext extension
  rw [extension?_eq_some_iff, extension?_eq_some_iff]
  have hdot : ∀ stem, stem ++ "." ++ extension ≠ "file:" := by
    intro stem h
    have hmem : '.' ∈ (stem ++ "." ++ extension).toList := by simp
    rw [h] at hmem
    exact absurd hmem (by decide)
  simp only [fileName?_scheme_eq_some_iff (hdot _)]

/-- A path has a given extension exactly if its last significant piece has it behind something. -/
theorem extension?_eq_some_iff_endsIn {p extension : String} (hne : extension ≠ "")
    (hdots : '.' ∉ extension.toList) :
    extension? p = some extension ↔
      ∃ stem, stem ≠ "" ∧ EndsIn p (stem ++ "." ++ extension) := by
  have hup : ∀ stem, stem ++ "." ++ extension ≠ ".." := by
    intro stem h
    obtain ⟨c, hc⟩ := List.exists_mem_of_ne_nil extension.toList (by simpa using hne)
    have hmem : c ∈ (stem ++ "." ++ extension).toList := by simp [hc]
    rw [h] at hmem
    obtain rfl : c = '.' := by simpa using hmem
    exact hdots hc
  rw [extension?_eq_some_iff]
  simp [fileName?_eq_some_iff, hup, hdots]

end Path

/-! ### Paths of uris -/

namespace FileUri

theorem path_scheme_append (p : String) : path ⟨scheme ++ p⟩ = p := by
  have hrest : scheme.toList.isPrefixOf? (scheme ++ p).toList = some p.toList := by
    rw [List.isPrefixOf?_eq_some_iff_append_eq, String.toList_append]
  rw [path, Text.stripStart?, hrest]
  exact String.ofList_toList

theorem path_cases (uri : FileUri) :
    (∃ rest, uri.text = scheme ++ rest ∧ uri.path = rest) ∨ uri.path = uri.text := by
  unfold path Text.stripStart?
  cases hrest : scheme.toList.isPrefixOf? uri.text.toList with
  | none => exact .inr rfl
  | some rest =>
    rw [List.isPrefixOf?_eq_some_iff_append_eq] at hrest
    refine .inl ⟨String.ofList rest, ?_, rfl⟩
    rw [← String.toList_inj, ← hrest]
    simp

theorem ofPath_of_isAbsolute {p : String} (h : Path.isAbsolute p = true) :
    ofPath p = if Text.contains p "://" then ⟨p⟩ else ⟨scheme ++ p⟩ := by
  unfold ofPath
  rw [if_pos (show Text.startsWith p "/" = true from h)]

theorem ne_scheme_append {p : String} (h : Path.isAbsolute p = true) (q : String) :
    p ≠ scheme ++ q := by
  rintro rfl
  rw [Path.isAbsolute_iff, String.toList_append] at h
  simp [scheme] at h

/-- Absolute paths with the same uri are the same text. -/
theorem ofPath_injOn {p q : String} (hp : Path.isAbsolute p = true) (hq : Path.isAbsolute q = true)
    (h : ofPath p = ofPath q) : p = q := by
  rw [ofPath_of_isAbsolute hp, ofPath_of_isAbsolute hq] at h
  -- A path with a scheme in it is its own uri and starts with a slash; other uris do not.
  split at h <;> split at h <;> rw [FileUri.mk.injEq] at h
  · exact h
  · exact absurd h (ne_scheme_append hp q)
  · exact absurd h.symm (ne_scheme_append hq p)
  · exact (String.append_right_inj scheme).1 h

end FileUri

/-! ### Languages -/

namespace Language

/-- A language other than that of all other files is the one whose name is the extension. -/
theorem ofPath_eq_iff {p : String} {language : Language} (h : language ≠ other) :
    ofPath p = language ↔ ∃ stem, stem ≠ "" ∧ Path.EndsIn p (stem ++ ("." ++ language.name)) := by
  have hextension : ofPath p = language ↔ Path.extension? p = some language.name := by
    unfold ofPath
    cases language with
    | xml => split <;> simp_all [name]
    | sql => split <;> simp_all [name]
    | other => exact absurd rfl h
  have hname : language.name ≠ "" ∧ '.' ∉ language.name.toList := by
    cases language <;> decide
  rw [hextension, Path.extension?_eq_some_iff_endsIn hname.1 hname.2]
  simp only [String.append_assoc]

theorem ofPath_congr {p q : String} (h : Path.extension? p = Path.extension? q) :
    ofPath p = ofPath q := by
  unfold ofPath
  rw [h]

/-- Each way to make a uri puts pieces in front of the path that do not change its extension. -/
theorem ofPath_path_ofPath (p : String) : ofPath (FileUri.ofPath p).path = ofPath p := by
  unfold FileUri.ofPath
  split
  · rcases FileUri.path_cases ⟨p⟩ with ⟨rest, hscheme, hpath⟩ | hpath
    · obtain rfl : p = FileUri.scheme ++ rest := hscheme
      rw [hpath]
      exact (ofPath_congr (Path.extension?_scheme rest)).symm
    · rw [hpath]
  · split
    · rw [FileUri.path_scheme_append]
    · rw [String.append_assoc, FileUri.path_scheme_append]
      exact ofPath_congr (Path.extension?_absolute p)

/-- A path and its uri have the same language, and that is the one for which the last significant
piece of the path has an extension behind something else. A path that starts with a slash and has
no scheme in it is the path of its uri. Paths that start with a slash have uris of their own. -/
theorem ofUri_ofPath (p q : String) :
    ofUri (FileUri.ofPath p) = ofPath p ∧
    (ofPath p = xml ↔ ∃ stem, stem ≠ "" ∧ Path.EndsIn p (stem ++ ".xml")) ∧
    (ofPath p = sql ↔ ∃ stem, stem ≠ "" ∧ Path.EndsIn p (stem ++ ".sql")) ∧
    (['/'] <+: p.toList → ¬"://".toList <:+: p.toList → (FileUri.ofPath p).path = p) ∧
    (['/'] <+: p.toList → ['/'] <+: q.toList → FileUri.ofPath p = FileUri.ofPath q → p = q) := by
  refine ⟨ofPath_path_ofPath p, ofPath_eq_iff (show xml ≠ other by decide),
    ofPath_eq_iff (show sql ≠ other by decide), ?_, ?_⟩
  · intro hslash hscheme
    have hcontains : Text.contains p "://" = false := by
      rw [← Bool.not_eq_true]
      exact fun h => hscheme (Chars.occursIn_iff.1 h)
    rw [FileUri.ofPath_of_isAbsolute (Path.isAbsolute_iff.2 hslash), hcontains]
    exact FileUri.path_scheme_append p
  · intro hp hq h
    exact FileUri.ofPath_injOn (Path.isAbsolute_iff.2 hp) (Path.isAbsolute_iff.2 hq) h

/-- A document in a directory that has the name of one, with a slash and a dot at the end, and
another one whose name begins with its only dot. -/
theorem ofUri_ofPath_dots :
    ['/'] <+: "/a.sql/U.xml/./".toList ∧ ['/'] <+: "/a.sql/.xml".toList ∧
      ¬"://".toList <:+: "/a.sql/U.xml/./".toList ∧
      ofUri (FileUri.ofPath "/a.sql/U.xml/./") = xml ∧
      ofUri (FileUri.ofPath "/a.sql/.xml") = other ∧
      (FileUri.ofPath "/a.sql/U.xml/./").path = "/a.sql/U.xml/./" ∧
      FileUri.ofPath "/a.sql/U.xml/./" ≠ FileUri.ofPath "/a.sql/.xml" := by
  have hslash : ['/'] <+: "/a.sql/U.xml/./".toList := by decide
  have hslash' : ['/'] <+: "/a.sql/.xml".toList := by decide
  have hscheme : ¬"://".toList <:+: "/a.sql/U.xml/./".toList := by decide
  obtain ⟨hlanguage, -, -, hpath, hown⟩ := ofUri_ofPath "/a.sql/U.xml/./" "/a.sql/.xml"
  have hxml : ofPath "/a.sql/U.xml/./" = xml := by decide
  have hother : ofPath "/a.sql/.xml" = other := by decide
  refine ⟨hslash, hslash', hscheme, hlanguage.trans hxml, ?_, hpath hslash hscheme, fun h => ?_⟩
  · exact (ofUri_ofPath "/a.sql/.xml" "").1.trans hother
  · exact absurd (hown hslash hslash' h) (by decide)

end Language

end SqlMapper

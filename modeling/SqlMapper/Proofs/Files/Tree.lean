import SqlMapper.Files.Tree
import SqlMapper.Proofs.Path

/-!
# Files in directories

A path leads through a tree piece by piece, so a name behind a directory leads to what stands under
that name in the place that the directory leads to. It does not matter whether the directory is
written with a slash at its end.

## Main definitions

* `FileTree.HoldsFile`: a directory with a file of a given name directly in it.

## Main statements

* `FileTree.walkNames_append`: walking in two parts.
* `FileTree.isFile_join`: a name behind a directory leads to a file exactly if the directory holds
  a file of this name.
-/

namespace SqlMapper

namespace Path

/-- A name that is one piece goes behind the pieces of the directory, in place of an empty one at
the end. -/
theorem pieces_join_name {directory name : String} (hdirectory : directory ≠ "")
    (hname : '/' ∉ name.toList) :
    ∃ ps, pieces (join directory name) = ps ++ [name] ∧
      (pieces directory = ps ∨ pieces directory = ps ++ [""]) := by
  have hrelative : isAbsolute name = false := by
    rw [← Bool.not_eq_true, isAbsolute_iff]
    exact fun h => hname (h.subset (by simp))
  unfold join
  rw [hrelative, if_neg Bool.false_ne_true]
  by_cases hslash : Text.endsWith directory "/" = true
  · obtain ⟨front, hfront⟩ := List.isSuffixOf_iff_suffix.1 hslash
    obtain rfl : directory = String.ofList front ++ "/" := by
      rw [← String.toList_inj, ← hfront]
      simp
    refine ⟨pieces (String.ofList front), ?_, .inr ?_⟩
    · rw [hslash, Bool.or_true, if_pos rfl, pieces_append, pieces_of_not_mem hname]
    · rw [← String.append_empty (s := String.ofList front ++ "/"), pieces_append]
      rfl
  · refine ⟨pieces directory, ?_, .inl rfl⟩
    rw [if_neg (by simp [hdirectory, hslash]), pieces_append, pieces_of_not_mem hname]

end Path

namespace FileTree

variable {t : FileTree} {cwd directory name path : String} {place place' ps : List String}

/-- The directory that the path leads to has a file of this name directly in it. -/
def HoldsFile (t : FileTree) (cwd directory name : String) : Prop :=
  ∃ place bytes, t.locate cwd directory = .ok (place, .directory) ∧
    t.at? (place ++ [name]) = some (.file bytes)

theorem walkNames_append (t : FileTree) (place names more : List String) :
    t.walkNames place (names ++ more) =
      (t.walkNames place names).bind fun reached => t.walkNames reached more := by
  induction names generalizing place with
  | nil => rfl
  | cons name names ih =>
    rw [List.cons_append, walkNames, walkNames]
    split
    · rfl
    · rfl
    · split
      · exact ih place
      · split
        · exact ih place.dropLast
        · exact ih (place ++ [name])

theorem walkNames_append_eq_ok_iff {names more : List String} :
    t.walkNames place (names ++ more) = .ok place' ↔
      ∃ reached, t.walkNames place names = .ok reached ∧ t.walkNames reached more = .ok place' := by
  rw [walkNames_append]
  cases t.walkNames place names with
  | error reason => simp [Except.bind]
  | ok reached => simp [Except.bind]

theorem walkNames_singleton_eq_ok_iff {piece : String} :
    t.walkNames place [piece] = .ok place' ↔
      t.at? place = some .directory ∧
        place' = if piece = "" || piece = "." then place
          else if piece = ".." then place.dropLast else place ++ [piece] := by
  rw [walkNames]
  split
  · next hat => simp [hat]
  · next hat => simp [hat]
  · next hat =>
    simp only [walkNames, hat, true_and, eq_comm (a := place')]
    split
    · simp
    · split <;> simp

/-- A slash at the end of a path to a directory makes no difference. -/
theorem walkNames_concat_empty :
    t.walkNames [] (ps ++ [""]) = .ok place ∧ t.at? place = some .directory ↔
      t.walkNames [] ps = .ok place ∧ t.at? place = some .directory := by
  simp only [walkNames_append_eq_ok_iff, walkNames_singleton_eq_ok_iff]
  constructor
  · rintro ⟨⟨reached, hreached, hat, rfl⟩, -⟩
    exact ⟨hreached, hat⟩
  · rintro ⟨hreached, hat⟩
    exact ⟨⟨place, hreached, hat, rfl⟩, hat⟩

theorem locate_eq_ok_iff (habsolute : Path.isAbsolute path = true) {node : FileNode} :
    t.locate cwd path = .ok (place, node) ↔
      t.walkNames [] (Path.pieces path) = .ok place ∧ t.at? place = some node := by
  have hne : path ≠ "" := by
    rintro rfl
    exact absurd habsolute (by decide)
  have hjoin : Path.join cwd path = path := by
    rw [Path.join, if_pos habsolute]
  rw [locate, if_neg hne, hjoin]
  cases t.walkNames [] (Path.pieces path) with
  | error reason => simp [bind, Except.bind]
  | ok reached =>
    simp only [bind, Except.bind, Except.ok.injEq]
    split
    · next found hat =>
      simp only [Except.ok.injEq, Prod.mk.injEq]
      refine and_congr_right ?_
      rintro rfl
      rw [hat, Option.some.injEq]
    · next hat =>
      simp only [reduceCtorEq, false_iff]
      rintro ⟨rfl, hnode⟩
      rw [hat] at hnode
      cases hnode

theorem isFile_iff :
    (t.access cwd).isFile path = true ↔
      ∃ place bytes, t.locate cwd path = .ok (place, .file bytes) := by
  unfold access
  dsimp only
  split
  · next place bytes hlocate => simp [hlocate]
  · next hother =>
    refine ⟨fun h => absurd h Bool.false_ne_true, ?_⟩
    rintro ⟨place, bytes, hlocate⟩
    exact absurd hlocate (hother place bytes)

/-- A name behind a directory leads to a file exactly if the directory holds a file of it. -/
theorem isFile_join (habsolute : Path.isAbsolute directory = true)
    (hname : Path.significant name = true) (hup : name ≠ "..") (hslash : '/' ∉ name.toList) :
    (t.access cwd).isFile (Path.join directory name) = true ↔ t.HoldsFile cwd directory name := by
  have hne : directory ≠ "" := by
    rintro rfl
    exact absurd habsolute (by decide)
  have hplain : (name = "" || name = ".") = false := by
    simpa [Path.significant] using hname
  obtain ⟨ps, hjoin, hdirectory⟩ := Path.pieces_join_name hne hslash
  have hlocate : ∀ place, t.locate cwd directory = .ok (place, .directory) ↔
      t.walkNames [] ps = .ok place ∧ t.at? place = some .directory := by
    intro place
    rw [locate_eq_ok_iff habsolute]
    rcases hdirectory with hpieces | hpieces
    · rw [hpieces]
    · rw [hpieces, walkNames_concat_empty]
  simp only [isFile_iff, locate_eq_ok_iff (Path.isAbsolute_join habsolute name), hjoin, HoldsFile,
    hlocate, walkNames_append_eq_ok_iff, walkNames_singleton_eq_ok_iff, hplain, hup]
  constructor
  · rintro ⟨place, bytes, ⟨reached, hreached, hat, hplace⟩, hfile⟩
    obtain rfl : place = reached ++ [name] := by simpa using hplace
    exact ⟨reached, bytes, ⟨hreached, hat⟩, hfile⟩
  · rintro ⟨reached, bytes, ⟨hreached, hat⟩, hfile⟩
    exact ⟨reached ++ [name], bytes, ⟨reached, hreached, hat, by simp⟩, hfile⟩

end FileTree

end SqlMapper

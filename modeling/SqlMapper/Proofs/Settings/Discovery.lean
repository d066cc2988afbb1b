import SqlMapper.Proofs.Ancestors
import SqlMapper.Proofs.Files.Tree
import SqlMapper.Proofs.First

/-!
# The file that holds the settings of a directory

Two orders meet in the search for settings: the nearer directory counts before the preferred name.
The search goes through one list, in which the names stand in their order for each directory and
the directories in theirs, so that its first file is the preferred one of the deepest directory
that has any.

## Main statements

* `Settings.run_find?`: the search, directory by directory.
* `Settings.find?_nearest`: what it finds in a tree.
-/

namespace SqlMapper

theorem Path.AtOrAbove.isAbsolute {directory p : String} (h : AtOrAbove directory p)
    (hp : Path.isAbsolute p = true) : Path.isAbsolute directory = true := by
  rcases h with rfl | h
  · exact hp
  · obtain ⟨rest, rfl⟩ := isAbsolute_iff_exists.1 hp
    obtain ⟨kept, -, rfl⟩ := isAbove_iff.1 h
    exact isAbsolute_ofPieces kept

namespace Settings

open SqlMapper.Path

variable {t : FileTree} {cwd directory path : String}

/-- The file with settings in one directory. -/
def settingsIn? (access : FileAccess Id) (directory : String) : Option String :=
  (fileNames.find? fun name => (access.isFile (join directory name)).run).map (join directory)

theorem run_firstFile? (access : FileAccess Id) (paths : List String) :
    (firstFile? access paths).run = paths.find? fun path => (access.isFile path).run := by
  induction paths with
  | nil => rfl
  | cons path paths ih =>
    rw [List.find?_cons, ← ih]
    show (if (access.isFile path).run = true then some path else (firstFile? access paths).run) = _
    cases (access.isFile path).run <;> rfl

theorem run_find? (access : FileAccess Id) (directory : String) :
    (find? access directory).run = (ancestors directory).findSome? (settingsIn? access) := by
  rw [find?, run_firstFile?, candidates, List.find?_flatMap]
  congr 1
  funext above
  rw [List.find?_map]
  rfl

/-! ### Settings in one directory of a tree -/

theorem isFile_join_fileName (habsolute : isAbsolute directory = true) {name : String}
    (hname : name ∈ fileNames) :
    ((t.access cwd).isFile (join directory name)).run = true ↔ t.HoldsFile cwd directory name := by
  have hplain : ∀ name ∈ fileNames,
      significant name = true ∧ name ≠ ".." ∧ '/' ∉ name.toList := by decide
  obtain ⟨hsignificant, hup, hslash⟩ := hplain name hname
  exact FileTree.isFile_join habsolute hsignificant hup hslash

theorem settingsIn?_eq_none_iff (habsolute : isAbsolute directory = true) :
    settingsIn? (t.access cwd) directory = none ↔
      ∀ name ∈ fileNames, ¬t.HoldsFile cwd directory name := by
  rw [settingsIn?, Option.map_eq_none_iff, List.find?_eq_none]
  exact forall₂_congr fun name hname => not_congr (isFile_join_fileName habsolute hname)

theorem settingsIn?_eq_some_iff (habsolute : isAbsolute directory = true) :
    settingsIn? (t.access cwd) directory = some path ↔
      ∃ name, IsFirst (t.HoldsFile cwd directory) fileNames name ∧ path = join directory name := by
  rw [settingsIn?, Option.map_eq_some_iff]
  refine exists_congr fun name => ?_
  rw [find?_eq_some_iff_isFirst,
    isFirst_congr fun name hname => isFile_join_fileName habsolute hname, eq_comm (a := path)]

/-- There are no settings exactly if no directory from the given one up to the root has a file of
one of the known names. Otherwise they are in the deepest one that has any, under the first of the
names that it has. -/
theorem find?_nearest (t : FileTree) (cwd directory : String)
    (habsolute : isAbsolute directory = true) :
    ((find? (t.access cwd) directory).run = none ↔
      ∀ above, AtOrAbove above directory → ∀ name ∈ fileNames, ¬t.HoldsFile cwd above name) ∧
    ∀ path, (find? (t.access cwd) directory).run = some path ↔
      ∃ above name, path = join above name ∧ AtOrAbove above directory ∧
        IsFirst (t.HoldsFile cwd above) fileNames name ∧
        ∀ deeper, AtOrAbove deeper directory → depth above < depth deeper →
          ∀ other ∈ fileNames, ¬t.HoldsFile cwd deeper other := by
  constructor
  · rw [run_find?, List.findSome?_eq_none_iff]
    refine forall_congr' fun above => ?_
    rw [mem_ancestors habsolute]
    exact forall_congr' fun h => settingsIn?_eq_none_iff (h.isAbsolute habsolute)
  · intro path
    rw [run_find?, findSome?_eq_some_iff_isFirst]
    simp only [isFirst_iff_of_pairwise (pairwise_depth_ancestors habsolute),
      mem_ancestors habsolute]
    constructor
    · rintro ⟨above, ⟨habove, -, hdeeper⟩, hfound⟩
      obtain ⟨name, hfirst, rfl⟩ :=
        (settingsIn?_eq_some_iff (habove.isAbsolute habsolute)).1 hfound
      refine ⟨above, name, rfl, habove, hfirst, fun deeper hat hdepth => ?_⟩
      have hnone := Option.not_isSome_iff_eq_none.1 (hdeeper deeper hat hdepth)
      exact (settingsIn?_eq_none_iff (hat.isAbsolute habsolute)).1 hnone
    · rintro ⟨above, name, rfl, habove, hfirst, hdeeper⟩
      have hfound : settingsIn? (t.access cwd) above = some (join above name) :=
        (settingsIn?_eq_some_iff (habove.isAbsolute habsolute)).2 ⟨name, hfirst, rfl⟩
      refine ⟨above, ⟨habove, by simp [hfound], fun deeper hat hdepth => ?_⟩, hfound⟩
      rw [Option.not_isSome_iff_eq_none]
      exact (settingsIn?_eq_none_iff (hat.isAbsolute habsolute)).2 (hdeeper deeper hat hdepth)

/-- A directory with the preferred name stands beside a file with the least preferred one, and the
preferred file further up. -/
def nestedSettings : FileTree :=
  ⟨[(["w"], .directory), (["w", ".mapperrc.yml"], .file ByteArray.empty),
    (["w", "a"], .directory), (["w", "a", ".mapperrc.yml"], .directory),
    (["w", "a", "mapper.config.json"], .file ByteArray.empty)]⟩

theorem find?_nearest_nested :
    isAbsolute "/w/a/s/" = true ∧
      (find? (nestedSettings.access "/") "/w/a/s/").run = some "/w/a/mapper.config.json" ∧
      (∃ above name, "/w/a/mapper.config.json" = join above name ∧
        AtOrAbove above "/w/a/s/" ∧
        IsFirst (nestedSettings.HoldsFile "/" above) fileNames name ∧
        ∀ deeper, AtOrAbove deeper "/w/a/s/" → depth above < depth deeper →
          ∀ other ∈ fileNames, ¬nestedSettings.HoldsFile "/" deeper other) := by
  have habsolute : isAbsolute "/w/a/s/" = true := by decide
  have hancestors : ancestors "/w/a/s/" = ["/w/a/s/", "/w/a", "/w", "/"] := by decide +kernel
  have hnone : settingsIn? (nestedSettings.access "/") "/w/a/s/" = none := by decide +kernel
  have hsome : settingsIn? (nestedSettings.access "/") "/w/a" =
      some "/w/a/mapper.config.json" := by decide +kernel
  have hfound : (find? (nestedSettings.access "/") "/w/a/s/").run =
      some "/w/a/mapper.config.json" := by
    rw [run_find?, hancestors, List.findSome?_cons, hnone, List.findSome?_cons, hsome]
  exact ⟨habsolute, hfound, ((find?_nearest nestedSettings "/" _ habsolute).2 _).1 hfound⟩

end Settings

end SqlMapper

import Mathlib.Data.List.Nodup
import SqlMapper.Glob.Expansion
import SqlMapper.Proofs.FileUri

/-!
# The files that patterns stand for

Seen from an absolute directory, patterns stand for absolute paths, and no two of them are the same
path. Absolute paths have uris of their own, so the files that patterns stand for can be told apart
by their uris.

## Main statements

* `Glob.isAbsolute_of_mem_expand`: patterns stand for absolute paths.
* `Glob.nodup_distinctPaths`: a path is listed once.
* `Glob.nodup_map_ofPath_expand`: so is its uri.
-/

namespace SqlMapper

namespace Glob

variable {access : FileAccess Id} {only : Bool} {fuel : Nat} {step : Step} {steps : List Step}
  {path name q : String}

/-! ### Where the paths that are found come from -/

theorem mem_of_mem_ite {c : Prop} [Decidable c] {found : Id (List String)}
    (h : q ∈ (if c then found else pure []).run) : q ∈ found.run := by
  split at h
  · exact h
  · cases h

theorem mem_finish (h : q ∈ (finish access only path).run) : q = path := by
  unfold finish at h
  split at h
  · exact List.mem_singleton.1 h
  · exact List.mem_singleton.1 (mem_of_mem_ite h)

theorem mem_follow_nil (h : q ∈ (follow access only fuel [] path).run) : q = path := by
  cases fuel with
  | zero =>
    rw [follow] at h
    cases h
  | succ fuel =>
    rw [follow] at h
    · exact mem_finish h
    · exact Nat.succ_ne_zero fuel

theorem visit_nil : visit access only fuel [] path name = pure [] := by
  cases fuel with
  | zero => rw [visit]
  | succ fuel =>
    rw [visit]
    exact Nat.succ_ne_zero fuel

/-- A step leads to a name below a path, to the path itself or to the one above it. -/
theorem mem_follow_succ (h : q ∈ (follow access only (fuel + 1) (step :: steps) path).run) :
    (∃ name, q ∈ (follow access only fuel steps (child path name)).run) ∨
      (∃ dot, q ∈ (follow access only fuel steps (Path.join path dot)).run) ∨
      ∃ name, q ∈ (visit access only fuel (step :: steps) (child path name) name).run := by
  rw [follow] at h
  cases hliteral : step.literal? with
  | some name =>
    simp only [hliteral] at h
    split at h <;> exact .inl ⟨name, mem_of_mem_ite h⟩
  | none =>
    simp only [hliteral, Id.run_bind] at h
    have hfound := mem_of_mem_ite h
    simp only [Id.run_bind, Id.run_pure, List.idRun_mapM, List.mem_append, List.mem_flatten,
      List.mem_map] at hfound
    rcases hfound with ⟨_, ⟨dot, -, rfl⟩, hq⟩ | ⟨_, ⟨name, -, rfl⟩, hq⟩
    · exact .inr (.inl ⟨dot, hq⟩)
    · exact .inr (.inr ⟨name, hq⟩)

/-- Any number of directories is none, or one and any number inside it. -/
theorem visit_directories : (visit access only (fuel + 1) (.directories :: steps) path name).run =
    (if steps.isEmpty then (if (access.isDirectory path).run then [path] else [])
      else (visit access only fuel steps path name).run) ++
    (if (access.isDirectory path).run then
      (follow access only fuel (.directories :: steps) path).run else []) := by
  rw [visit]
  simp only [Id.run_bind]
  split <;> split <;> rfl

/-- A step that is taken to a path leads on from there, if not to the path itself. -/
theorem mem_visit_succ (h : q ∈ (visit access only (fuel + 1) (step :: steps) path name).run) :
    q = path ∨ q ∈ (visit access only fuel steps path name).run ∨
      q ∈ (follow access only fuel (step :: steps) path).run ∨
      q ∈ (follow access only fuel steps path).run := by
  cases step with
  | directories =>
    rw [visit_directories, List.mem_append] at h
    rcases h with hhere | hinside
    · split at hhere
      · exact .inl (List.mem_singleton.1 (mem_of_mem_ite hhere))
      · exact .inr (.inl hhere)
    · exact .inr (.inr (.inl (mem_of_mem_ite hinside)))
  | name tokens =>
    rw [visit] at h
    · exact .inr (.inr (.inr (mem_of_mem_ite h)))
    · exact Step.noConfusion

/-! ### Absolute paths -/

theorem isAbsolute_child (h : Path.isAbsolute path = true) (name : String) :
    Path.isAbsolute (child path name) = true := by
  unfold child
  split
  · subst path
    cases h
  · exact Path.isAbsolute_join h name

/-- From an absolute path, steps lead to absolute paths only. -/
theorem isAbsolute_of_mem_follow_visit (access : FileAccess Id) (only : Bool) (fuel : Nat) :
    (∀ steps path q, Path.isAbsolute path = true →
      q ∈ (follow access only fuel steps path).run → Path.isAbsolute q = true) ∧
    ∀ steps path name q, Path.isAbsolute path = true →
      q ∈ (visit access only fuel steps path name).run → Path.isAbsolute q = true := by
  -- each of the two leads on by the other, with less fuel
  induction fuel with
  | zero =>
    constructor
    · intro steps path q _ h
      rw [follow] at h
      cases h
    · intro steps path name q _ h
      rw [visit] at h
      cases h
  | succ fuel ih =>
    obtain ⟨ihFollow, ihVisit⟩ := ih
    constructor
    · rintro (_ | ⟨step, steps⟩) path q habs h
      · rwa [mem_follow_nil h]
      · rcases mem_follow_succ h with ⟨name, hq⟩ | ⟨dot, hq⟩ | ⟨name, hq⟩
        · exact ihFollow _ _ _ (isAbsolute_child habs name) hq
        · exact ihFollow _ _ _ (Path.isAbsolute_join habs dot) hq
        · exact ihVisit _ _ _ _ (isAbsolute_child habs name) hq
    · rintro (_ | ⟨step, steps⟩) path name q habs h
      · rw [visit_nil] at h
        cases h
      · rcases mem_visit_succ h with rfl | hq | hq | hq
        · exact habs
        · exact ihVisit _ _ _ _ habs hq
        · exact ihFollow _ _ _ habs hq
        · exact ihFollow _ _ _ habs hq

theorem isAbsolute_start {pattern : String} {plan : Plan} (h : Plan.ofPattern? pattern = some plan)
    (habs : Path.isAbsolute pattern = true) : Path.isAbsolute plan.start = true := by
  simp only [Plan.ofPattern?, Option.bind_eq_bind, Option.bind_eq_some_iff, Option.some.injEq,
    habs, if_true] at h
  obtain ⟨-, -, -, -, rfl⟩ := h
  exact (by decide : Path.isAbsolute "/" = true)

/-- Patterns seen from an absolute directory start at the root. -/
theorem isAbsolute_of_mem_plans {base : String} (habs : Path.isAbsolute base = true)
    {patterns : List String} {found : List Plan} (h : plans base patterns = .ok found) :
    ∀ plan ∈ found, Path.isAbsolute plan.start = true := by
  induction patterns generalizing found with
  | nil =>
    cases h
    simp
  | cons pattern patterns ih =>
    rw [plans] at h
    split at h
    · cases h
    · rename_i first hfirst
      cases hrest : plans base patterns with
      | error e =>
        rw [hrest] at h
        cases h
      | ok rest =>
        rw [hrest] at h
        cases h
        rintro plan (_ | ⟨_, hplan⟩)
        · exact isAbsolute_start hfirst (Path.isAbsolute_join habs pattern)
        · exact ih hrest plan hplan

theorem filesAmong_eq_filter (access : FileAccess Id) (paths : List String) :
    (filesAmong access paths).run = paths.filter fun path => (access.isFile path).run := by
  induction paths with
  | nil => rfl
  | cons path paths ih =>
    rw [filesAmong, List.filter_cons, ← ih]
    rfl

/-! ### Paths listed once -/

theorem distinctPaths_sublist (paths : List String) : (distinctPaths paths).Sublist paths := by
  induction paths with
  | nil => exact .slnil
  | cons path paths ih => exact (List.filter_sublist.trans ih).cons_cons path

theorem nodup_distinctPaths (paths : List String) : (distinctPaths paths).Nodup := by
  induction paths with
  | nil => exact List.nodup_nil
  | cons path paths ih =>
    rw [distinctPaths, List.nodup_cons]
    refine ⟨?_, ih.filter _⟩
    simp [Path.same_self]

/-! ### Expansion -/

theorem expand_eq_ok {base : String} {patterns paths : List String}
    (h : (expand access base patterns).run = .ok paths) :
    ∃ found, plans base patterns = .ok found ∧
      paths = distinctPaths ((found.flatMap fun plan => (plan.paths access).run).filter
        fun path => (access.isFile path).run) := by
  unfold expand at h
  split at h
  · cases h
  · rename_i found hfound
    refine ⟨found, hfound, ?_⟩
    simp only [Id.run_bind, Id.run_pure, List.idRun_mapM, filesAmong_eq_filter] at h
    rw [List.flatMap_def]
    exact (Except.ok.inj h).symm

/-- Seen from an absolute directory, patterns stand for absolute paths. -/
theorem isAbsolute_of_mem_expand {base : String} (habs : Path.isAbsolute base = true)
    {patterns paths : List String} (h : (expand access base patterns).run = .ok paths) :
    ∀ path ∈ paths, Path.isAbsolute path = true := by
  obtain ⟨found, hfound, rfl⟩ := expand_eq_ok h
  intro path hpath
  have hmem := List.mem_of_mem_filter ((distinctPaths_sublist _).subset hpath)
  obtain ⟨plan, hplan, hq⟩ := List.mem_flatMap.1 hmem
  have hstart := isAbsolute_of_mem_plans habs hfound plan hplan
  exact (isAbsolute_of_mem_follow_visit _ _ _).1 _ _ _ hstart hq

/-- The files that patterns stand for, seen from an absolute directory, have uris of their own. -/
theorem nodup_map_ofPath_expand {base : String} (habs : Path.isAbsolute base = true)
    {patterns paths : List String} (h : (expand access base patterns).run = .ok paths) :
    (paths.map FileUri.ofPath).Nodup := by
  have habsolute := isAbsolute_of_mem_expand habs h
  obtain ⟨found, -, rfl⟩ := expand_eq_ok h
  exact List.Nodup.map_on
    (fun p hp q hq => FileUri.ofPath_injOn (habsolute p hp) (habsolute q hq))
    (nodup_distinctPaths _)

end Glob

end SqlMapper

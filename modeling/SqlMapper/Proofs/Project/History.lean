import Mathlib.Data.List.Induction
import Mathlib.Data.List.Nodup
import SqlMapper.Proofs.Project.Resolution

/-!
# Histories of a registry

A registry is made by a run of changes, and what it says can be read off that run: which files it
has, with which texts and numbers and in which order. Numbers are counted up and never come down, so
the order of the files, that of their numbers and that of their registrations are one order.

## Main definitions

* `Registry.Change`, `Registry.run`: a change, and what a run of changes makes.
* `Registry.handedOut`: the numbers that a run gives to new files.
* `Registry.LastAdded`, `Registry.RegisteredAfter`: what a history says about a file.
* `Registry.Recorded`: a registry says what its history says.

## Main statements

* `Registry.Numbered.apply`: every change keeps the numbers of the files in order.
* `Registry.lastAdded_iff`: a file has the text that was added last.
* `Registry.mem_uris_iff`: a file is there if it was registered and not removed since.
* `Registry.run_recorded`: every run is recorded.
-/

namespace SqlMapper.Registry

/-- A change of a registry. -/
inductive Change where
  | add (uri : FileUri) (text : String)
  | remove (uri : FileUri)
  deriving Repr, DecidableEq

namespace Change

/-- The file that a change is about. -/
def uri : Change → FileUri
  | add uri _ => uri
  | remove uri => uri

end Change

/-- The registry after a change. -/
def apply (r : Registry) : Change → Registry
  | .add uri text => r.add uri text
  | .remove uri => r.remove uri

/-- The registry that a run of changes makes. -/
def run (changes : List Change) : Registry :=
  changes.foldl apply empty

/-- The numbers that new files get when the changes are made, in the order in which they get them.
A file that is known gets none. -/
def handedOut (r : Registry) : List Change → List Nat
  | [] => []
  | .add uri text :: changes =>
    (if r.contains uri then [] else ((r.add uri text).id? uri).toList) ++
      handedOut (r.add uri text) changes
  | .remove uri :: changes => handedOut (r.remove uri) changes

/-- The last change of the file gives it this text. -/
def LastAdded (changes : List Change) (uri : FileUri) (text : String) : Prop :=
  ∃ before after, changes = before ++ .add uri text :: after ∧ ∀ c ∈ after, c.uri ≠ uri

/-- The file was absent after the first changes, was then added and has not been removed since. -/
def RegisteredAfter (changes : List Change) (uri : FileUri) (before : List Change) : Prop :=
  ∃ text after, changes = before ++ .add uri text :: after ∧ (run before).contains uri = false ∧
    .remove uri ∉ after

variable {r : Registry} {changes : List Change} {uri : FileUri} {entry : FileEntry} {id : Nat}

theorem run_append (before after : List Change) :
    run (before ++ after) = after.foldl apply (run before) :=
  List.foldl_append

theorem run_concat (changes : List Change) (c : Change) :
    run (changes ++ [c]) = (run changes).apply c :=
  run_append changes [c]

theorem reachable_run (changes : List Change) : (run changes).Reachable := by
  induction changes using List.reverseRecOn with
  | nil => exact .empty
  | append_singleton changes c ih =>
    rw [run_concat]
    cases c with
    | add uri text => exact ih.add uri text
    | remove uri => exact ih.remove uri

/-! ### One change -/

theorem get?_apply_of_ne {c : Change} (h : c.uri ≠ uri) : (r.apply c).get? uri = r.get? uri := by
  cases c with
  | add x text => exact (get?_add r x uri text).trans (if_neg (Ne.symm h))
  | remove x => exact (get?_remove r x uri).trans (if_neg (Ne.symm h))

theorem id?_add_self (r : Registry) (uri : FileUri) (text : String) :
    (r.add uri text).id? uri = some (r.idFor uri) := by
  rw [id?, get?_add, if_pos rfl]
  rfl

theorem idFor_of_contains (h : r.contains uri = true) : r.id? uri = some (r.idFor uri) := by
  rw [contains_eq_isSome_get?, Option.isSome_iff_exists] at h
  obtain ⟨entry, hentry⟩ := h
  simp [idFor, id?, hentry]

theorem idFor_of_not_contains (h : r.contains uri = false) : r.idFor uri = r.nextId := by
  rw [contains_eq_isSome_get?, Option.isSome_eq_false_iff, Option.isNone_iff_eq_none] at h
  simp [idFor, id?, h]

theorem nextId_add_of_contains (h : r.contains uri = true) (text : String) :
    (r.add uri text).nextId = r.nextId := by
  simp [add, h]

theorem nextId_add_of_not_contains (h : r.contains uri = false) (text : String) :
    (r.add uri text).nextId = r.nextId + 1 := by
  simp [add, h]

theorem contains_iff_mem_uris : r.contains uri = true ↔ uri ∈ r.uris :=
  Table.contains_iff_mem_keys

/-- A file keeps its number through every change but its removal. -/
theorem id?_apply {c : Change} (hc : c ≠ .remove uri) (h : r.id? uri = some id) :
    (r.apply c).id? uri = some id := by
  by_cases huri : c.uri = uri
  · cases c with
    | add x text =>
      obtain rfl : x = uri := huri
      rw [apply, id?_add_self, idFor, h, Option.getD_some]
    | remove x => exact absurd (congrArg Change.remove huri) hc
  · rw [id?, get?_apply_of_ne huri]
    exact h

/-- Updating a file keeps its number and all places. -/
theorem add_of_contains (h : r.contains uri = true) (text : String) :
    (r.add uri text).id? uri = r.id? uri ∧ (r.add uri text).uris = r.uris := by
  constructor
  · rw [id?_add_self, idFor_of_contains h]
  · rw [uris_add, if_pos (contains_iff_mem_uris.1 h)]

/-! ### Numbers -/

/-- The numbers of the files are in the order of the files, below the next one. -/
structure Numbered (r : Registry) : Prop where
  increasing : (r.entries.map (·.id)).Pairwise (· < ·)
  below : ∀ id ∈ r.entries.map (·.id), id < r.nextId

theorem numbered_empty : Registry.empty.Numbered where
  increasing := List.Pairwise.nil
  below := by
    intro id hid
    cases hid

theorem map_id_add_of_contains (h : r.contains uri = true) (text : String) :
    (r.add uri text).entries.map (·.id) = r.entries.map (·.id) := by
  apply Table.map_values_insert
  exact idFor_of_contains h

theorem map_id_add_of_not_contains (h : r.contains uri = false) (text : String) :
    (r.add uri text).entries.map (·.id) = r.entries.map (·.id) ++ [r.nextId] := by
  rw [entries_add_of_not_contains h, List.map_append, ← idFor_of_not_contains h]
  rfl

theorem Numbered.add (h : r.Numbered) (uri : FileUri) (text : String) :
    (r.add uri text).Numbered := by
  cases hknown : r.contains uri with
  | true =>
    constructor
    · rw [map_id_add_of_contains hknown]
      exact h.increasing
    · rw [map_id_add_of_contains hknown, nextId_add_of_contains hknown]
      exact h.below
  | false =>
    constructor
    · rw [map_id_add_of_not_contains hknown, List.pairwise_append]
      refine ⟨h.increasing, List.pairwise_singleton _ _, ?_⟩
      intro id hid new hnew
      rw [List.mem_singleton.1 hnew]
      exact h.below id hid
    · intro id hid
      rw [map_id_add_of_not_contains hknown, List.mem_append, List.mem_singleton] at hid
      rw [nextId_add_of_not_contains hknown]
      rcases hid with hold | rfl
      · have := h.below id hold
        omega
      · omega

theorem Numbered.remove (h : r.Numbered) (uri : FileUri) : (r.remove uri).Numbered := by
  have hsub : ((r.remove uri).entries.map (·.id)).Sublist (r.entries.map (·.id)) :=
    (List.filter_sublist.map _).map _
  exact ⟨h.increasing.sublist hsub, fun id hid => h.below id (hsub.subset hid)⟩

/-- Every change keeps the numbers in order. -/
theorem Numbered.apply (h : r.Numbered) (c : Change) : (r.apply c).Numbered := by
  cases c with
  | add uri text => exact h.add uri text
  | remove uri => exact h.remove uri

theorem numbered_run (changes : List Change) : (run changes).Numbered := by
  induction changes using List.reverseRecOn with
  | nil => exact numbered_empty
  | append_singleton changes c ih =>
    rw [run_concat]
    exact ih.apply c

/-- Files with one number are one file. -/
theorem Numbered.eq_of_id_eq (h : r.Numbered) {a b : FileEntry} (ha : a ∈ r.entries)
    (hb : b ∈ r.entries) (hid : a.id = b.id) : a = b := by
  have hids : (r.entries.map (·.id)).Nodup := h.increasing.imp Nat.ne_of_lt
  exact List.inj_on_of_nodup_map hids ha hb hid

theorem mem_entries_of_get? (h : r.get? uri = some entry) : entry ∈ r.entries :=
  List.mem_map.2 ⟨(uri, entry), Table.get?_eq_some_iff.1 h, rfl⟩

theorem UpToDate.get?_of_mem_entries (h : r.UpToDate) (hmem : entry ∈ r.entries) :
    r.get? entry.uri = some entry := by
  obtain ⟨⟨key, _⟩, hfile, rfl⟩ := List.mem_map.1 hmem
  have hentry : r.get? key = some _ := Table.get?_eq_some_iff.2 hfile
  rw [← h.key_eq hentry] at hentry
  exact hentry

/-- A file and its number find each other. -/
theorem uri?_eq_some_iff (hn : r.Numbered) (h : r.UpToDate) :
    r.uri? id = some uri ↔ r.id? uri = some id := by
  constructor
  · intro huri
    obtain ⟨entry, hfind, rfl⟩ := Option.map_eq_some_iff.1 huri
    have hentry := h.get?_of_mem_entries (List.mem_of_find?_eq_some hfind)
    have hid : entry.id = id := by simpa using List.find?_some hfind
    rw [id?, hentry, Option.map_some, hid]
  · intro hid
    obtain ⟨entry, hentry, rfl⟩ := Option.map_eq_some_iff.1 hid
    have hmem := mem_entries_of_get? hentry
    have hfound : (r.entries.find? fun e => e.id == entry.id).isSome = true :=
      List.find?_isSome.2 ⟨entry, hmem, beq_self_eq_true _⟩
    obtain ⟨found, hfind⟩ := Option.isSome_iff_exists.1 hfound
    -- The first file with this number is the only one.
    have heq : found = entry :=
      hn.eq_of_id_eq (List.mem_of_find?_eq_some hfind) hmem (by simpa using List.find?_some hfind)
    have huri : found.uri = uri := by rw [heq, h.key_eq hentry]
    rw [uri?, ← entries, hfind, Option.map_some, huri]

/-! ### The counter -/

/-- New files get the numbers from the next one on, one after the other. -/
theorem handedOut_eq_range' (r : Registry) (changes : List Change) :
    ∃ n, handedOut r changes = List.range' r.nextId n ∧
      (changes.foldl apply r).nextId = r.nextId + n := by
  induction changes generalizing r with
  | nil => exact ⟨0, rfl, rfl⟩
  | cons c changes ih =>
    obtain ⟨n, hnumbers, hnext⟩ := ih (r.apply c)
    rw [List.foldl_cons, hnext]
    cases c with
    | add uri text =>
      rw [handedOut, ← apply, hnumbers]
      cases hknown : r.contains uri with
      | true =>
        refine ⟨n, ?_, ?_⟩ <;> simp [apply, nextId_add_of_contains hknown]
      | false =>
        refine ⟨n + 1, ?_, ?_⟩
        · simp [apply, nextId_add_of_not_contains hknown, id?_add_self,
            idFor_of_not_contains hknown, List.range'_succ]
        · rw [apply, nextId_add_of_not_contains hknown]
          omega
    | remove uri => exact ⟨n, hnumbers, rfl⟩

theorem handedOut_run (changes : List Change) :
    handedOut empty changes = List.range (run changes).nextId := by
  obtain ⟨n, hnumbers, hnext⟩ := handedOut_eq_range' empty changes
  rw [hnumbers, run, hnext, List.range_eq_range']
  simp [empty]

theorem nextId_run_mono (before after : List Change) :
    (run before).nextId ≤ (run (before ++ after)).nextId := by
  obtain ⟨n, -, hnext⟩ := handedOut_eq_range' (run before) after
  rw [run_append, hnext]
  exact Nat.le_add_right _ n

/-! ### Texts -/

theorem get?_foldl_of_untouched (h : ∀ c ∈ changes, c.uri ≠ uri) :
    (changes.foldl apply r).get? uri = r.get? uri := by
  induction changes generalizing r with
  | nil => rfl
  | cons c changes ih =>
    rw [List.foldl_cons, ih fun d hd => h d (List.mem_cons_of_mem c hd)]
    exact get?_apply_of_ne (h c List.mem_cons_self)

/-- Whatever text a file has came with its last change. -/
theorem lastAdded_of_get? (h : (run changes).get? uri = some entry) :
    LastAdded changes uri entry.text := by
  induction changes using List.reverseRecOn with
  | nil => cases h
  | append_singleton changes c ih =>
    rw [run_concat] at h
    by_cases huri : c.uri = uri
    · cases c with
      | add x text =>
        obtain rfl : x = uri := huri
        rw [apply, get?_add, if_pos rfl, Option.some.injEq] at h
        refine ⟨changes, [], ?_, by simp⟩
        rw [← h]
        rfl
      | remove x =>
        obtain rfl : x = uri := huri
        rw [apply, get?_remove, if_pos rfl] at h
        cases h
    · rw [get?_apply_of_ne huri] at h
      obtain ⟨before, after, rfl, hafter⟩ := ih h
      refine ⟨before, after ++ [c], by simp, ?_⟩
      intro d hd
      rcases List.mem_append.1 hd with hold | hlast
      · exact hafter d hold
      · rw [List.mem_singleton.1 hlast]
        exact huri

/-- A file has the text that was added last, and is there only if it was not removed after that. -/
theorem lastAdded_iff {text : String} :
    LastAdded changes uri text ↔ ((run changes).get? uri).map (·.text) = some text := by
  constructor
  · rintro ⟨before, after, rfl, hafter⟩
    rw [run_append, List.foldl_cons, get?_foldl_of_untouched hafter, apply, get?_add, if_pos rfl]
    rfl
  · intro h
    obtain ⟨entry, hentry, rfl⟩ := Option.map_eq_some_iff.1 h
    exact lastAdded_of_get? hentry

/-! ### Registrations -/

theorem id?_foldl_of_not_removed (hkeep : .remove uri ∉ changes) (h : r.id? uri = some id) :
    (changes.foldl apply r).id? uri = some id := by
  induction changes generalizing r with
  | nil => exact h
  | cons c changes ih =>
    rw [List.mem_cons, not_or] at hkeep
    exact ih hkeep.2 (id?_apply (Ne.symm hkeep.1) h)

/-- The number of a file is the one that was next when the file was registered. -/
theorem RegisteredAfter.id?_eq {before : List Change} (h : RegisteredAfter changes uri before) :
    (run changes).id? uri = some (run before).nextId := by
  obtain ⟨text, after, rfl, habsent, hkeep⟩ := h
  rw [run_append, List.foldl_cons]
  apply id?_foldl_of_not_removed hkeep
  rw [apply, id?_add_self, idFor_of_not_contains habsent]

theorem RegisteredAfter.concat {before : List Change} (h : RegisteredAfter changes uri before)
    {c : Change} (hc : c ≠ .remove uri) : RegisteredAfter (changes ++ [c]) uri before := by
  obtain ⟨text, after, rfl, habsent, hkeep⟩ := h
  refine ⟨text, after ++ [c], by simp, habsent, ?_⟩
  simp [hkeep, Ne.symm hc]

theorem exists_registeredAfter (h : (run changes).contains uri = true) :
    ∃ before, RegisteredAfter changes uri before := by
  induction changes using List.reverseRecOn with
  | nil => cases h
  | append_singleton changes c ih =>
    have hc : c ≠ .remove uri := by
      rintro rfl
      rw [run_concat, apply, contains_eq_isSome_get?, get?_remove, if_pos rfl] at h
      cases h
    cases hknown : (run changes).contains uri with
    | true =>
      obtain ⟨before, hbefore⟩ := ih hknown
      exact ⟨before, hbefore.concat hc⟩
    | false =>
      -- The file is new, so the last change is the one that added it.
      by_cases huri : c.uri = uri
      · cases c with
        | add x text =>
          obtain rfl : x = uri := huri
          exact ⟨changes, text, [], rfl, hknown, by simp⟩
        | remove x => exact absurd (congrArg Change.remove huri) hc
      · rw [run_concat, contains_eq_isSome_get?, get?_apply_of_ne huri,
          ← contains_eq_isSome_get?, hknown] at h
        cases h

/-- A file is there exactly if it was registered and not removed since. -/
theorem mem_uris_iff :
    uri ∈ (run changes).uris ↔ ∃ before, RegisteredAfter changes uri before := by
  rw [← contains_iff_mem_uris]
  constructor
  · exact exists_registeredAfter
  · rintro ⟨before, h⟩
    obtain ⟨entry, hentry, -⟩ := Option.map_eq_some_iff.1 h.id?_eq
    rw [contains_eq_isSome_get?, hentry]
    rfl

/-- Of two registrations the one that gave the smaller number came first. -/
theorem RegisteredAfter.length_lt {before before' : List Change} {uri' : FileUri}
    (h : RegisteredAfter changes uri before) (h' : RegisteredAfter changes uri' before')
    (hid : (run before).nextId < (run before').nextId) : before.length < before'.length := by
  obtain ⟨text, after, hsplit, -⟩ := h
  obtain ⟨text', after', hsplit', -⟩ := h'
  by_contra hle
  -- Otherwise the second history is a part of the first, and counters only go up.
  have hpart : before' <+: before :=
    List.prefix_of_prefix_length_le ⟨_, hsplit'.symm⟩ ⟨_, hsplit.symm⟩ (by omega)
  obtain ⟨rest, rfl⟩ := hpart
  have hmono := nextId_run_mono before' rest
  omega

theorem uris_pairwise (changes : List Change) :
    (run changes).uris.Pairwise fun u v => ∀ before before',
      RegisteredAfter changes u before → RegisteredAfter changes v before' →
        before.length < before'.length := by
  have hids : (run changes).files.entries.Pairwise fun a b => a.2.id < b.2.id := by
    have hincreasing := (numbered_run changes).increasing
    rwa [entries, Table.values, List.map_map, List.pairwise_map] at hincreasing
  -- The numbers carry the order from the files over to their registrations.
  rw [uris, Table.keys, List.pairwise_map]
  refine hids.imp_of_mem ?_
  intro a b ha hb hlt before before' hbefore hbefore'
  have hida : (run changes).id? a.1 = some a.2.id :=
    congrArg (Option.map _) (Table.get?_eq_some_iff.2 ha)
  have hidb : (run changes).id? b.1 = some b.2.id :=
    congrArg (Option.map _) (Table.get?_eq_some_iff.2 hb)
  rw [hbefore.id?_eq, Option.some.injEq] at hida
  rw [hbefore'.id?_eq, Option.some.injEq] at hidb
  exact hbefore.length_lt hbefore' (by omega)

/-! ### What a registry records -/

/-- What a registry says about the run of changes that made it. -/
structure Recorded (changes : List Change) (r : Registry) : Prop where
  uris_nodup : r.uris.Nodup
  uri_eq : ∀ uri entry, r.get? uri = some entry → entry.uri = uri
  ids_nodup : (r.entries.map (·.id)).Nodup
  id_lt : ∀ entry ∈ r.entries, entry.id < r.nextId
  /-- The numbers below the next one were handed out once each, those of files now gone included. -/
  handedOut_eq : handedOut empty changes = List.range r.nextId
  update : ∀ uri text, r.contains uri = true →
    (r.add uri text).id? uri = r.id? uri ∧ (r.add uri text).uris = r.uris
  uri?_iff : ∀ id uri, r.uri? id = some uri ↔ r.id? uri = some id
  text_iff : ∀ uri text, (r.get? uri).map (·.text) = some text ↔ LastAdded changes uri text
  lines_eq : ∀ uri entry, r.get? uri = some entry → entry.lines = LineIndex.ofText entry.text
  document_iff : ∀ uri entry, r.get? uri = some entry → ∀ d, entry.document = some d ↔
    Language.ofUri uri = .xml ∧ Document.parse uri entry.text = .ok d
  mem_uris_iff : ∀ uri, uri ∈ r.uris ↔ ∃ before, RegisteredAfter changes uri before
  /-- The files are in the order of their registrations. -/
  order : r.uris.Pairwise fun u v => ∀ before before',
    RegisteredAfter changes u before → RegisteredAfter changes v before' →
      before.length < before'.length

/-- After any run of changes the registry is a record of it. Uris and numbers are distinct, no
number is ever handed out twice, a file and its number find each other, the text of a file is the
last one it was given and what is derived from a text is up to date, and the files are in the order
in which they were registered since they were last absent. -/
theorem run_recorded (changes : List Change) : Recorded changes (run changes) where
  uris_nodup := (run changes).files.distinct
  uri_eq _ _ h := (reachable_run changes).upToDate.key_eq h
  ids_nodup := (numbered_run changes).increasing.imp Nat.ne_of_lt
  id_lt _ h := (numbered_run changes).below _ (List.mem_map_of_mem h)
  handedOut_eq := handedOut_run changes
  update _ text h := add_of_contains h text
  uri?_iff _ _ := uri?_eq_some_iff (numbered_run changes) (reachable_run changes).upToDate
  text_iff _ _ := lastAdded_iff.symm
  lines_eq _ _ h := (reachable_run changes).upToDate.lines_eq h
  document_iff _ _ h _ := by
    rw [(reachable_run changes).upToDate.document_eq h, FileEntry.document?_eq_some_iff]
  mem_uris_iff _ := mem_uris_iff
  order := uris_pairwise changes

/-- A file that comes back gets a new number. -/
example : handedOut empty [.add ⟨"a"⟩ "x", .add ⟨"b"⟩ "", .remove ⟨"a"⟩, .add ⟨"b"⟩ "y",
    .add ⟨"a"⟩ "x"] = [0, 1, 2] := by
  decide +kernel

end SqlMapper.Registry

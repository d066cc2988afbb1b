import SqlMapper.Table

/-!
# Tables as sets of entries

Since keys do not repeat, looking a key up in a table and finding an entry with that key are the
same thing. Loops over the entries that act on one key only therefore come down to a look-up.

## Main statements

* `Table.get?_eq_some_iff`: the value of a key is the one that stands beside it.
* `Table.flatMap_entries_of_key`: a loop that acts on one key is a look-up.
* `Table.entries_insert_of_not_contains`: the entry of a new key goes to the end.
* `Table.map_values_insert`: a known key keeps its place.
* `Table.eq_of_keys_of_get?`: a table is its keys in order and their values.
* `Table.get?_merge`, `Table.keys_merge`, `Table.merge_insert`: setting all that another table has.
-/

namespace SqlMapper.Table

variable {κ β γ : Type} [DecidableEq κ]

/-- A table has a value for a key exactly if the two stand in one entry. -/
theorem get?_eq_some_iff {t : Table κ β} {k : κ} {v : β} :
    t.get? k = some v ↔ (k, v) ∈ t.entries := by
  obtain ⟨es, distinct⟩ := t
  simp only [get?]
  induction es with
  | nil => simp
  | cons e es ih =>
    rw [List.map_cons, List.nodup_cons] at distinct
    obtain ⟨hfresh, hrest⟩ := distinct
    by_cases hk : e.1 = k
    · subst hk
      have hnot : (e.1, v) ∉ es := fun hmem => hfresh (List.mem_map.2 ⟨_, hmem, rfl⟩)
      have hhead : (e.1, v) = e ↔ e.2 = v := by
        rw [Prod.ext_iff]
        simp [eq_comm]
      simp [hnot, hhead]
    · have hhead : (k, v) ≠ e := fun he => hk (congrArg Prod.fst he).symm
      simpa [hk, hhead] using ih hrest

/-- A loop over the entries that does nothing except for one key is a look-up of that key. -/
theorem flatMap_entries_of_key (t : Table κ β) (k : κ) {f : κ × β → List γ}
    (hf : ∀ e, e.1 ≠ k → f e = []) :
    t.entries.flatMap f = (t.get? k).elim [] fun v => f (k, v) := by
  obtain ⟨es, distinct⟩ := t
  simp only [get?]
  induction es with
  | nil => rfl
  | cons e es ih =>
    rw [List.map_cons, List.nodup_cons] at distinct
    obtain ⟨hfresh, hrest⟩ := distinct
    rw [List.flatMap_cons]
    by_cases hk : e.1 = k
    · -- The key stands in no later entry, so the rest of the loop adds nothing.
      have hnone : es.flatMap f = [] := by
        rw [List.flatMap_eq_nil_iff]
        intro d hd
        exact hf d fun h => hfresh (hk ▸ h ▸ List.mem_map_of_mem hd)
      obtain ⟨key, v⟩ := e
      subst hk
      simp [hnone]
    · rw [hf e hk, List.nil_append, ih hrest]
      simp [hk]

theorem put_of_not_mem {k : κ} {v : β} {es : List (κ × β)} (h : k ∉ es.map Prod.fst) :
    put k v es = es ++ [(k, v)] := by
  induction es with
  | nil => rfl
  | cons e es ih =>
    rw [List.map_cons, List.mem_cons, not_or] at h
    rw [put, if_neg (Ne.symm h.1), ih h.2, List.cons_append]

/-- The entry of a new key goes behind all others. -/
theorem entries_insert_of_not_contains {t : Table κ β} {k : κ} (h : t.contains k = false) (v : β) :
    (t.insert k v).entries = t.entries ++ [(k, v)] := by
  refine put_of_not_mem fun hmem => ?_
  rw [contains_iff_mem_keys.2 hmem] at h
  cases h

theorem map_put {f : β → γ} {k : κ} {v : β} {es : List (κ × β)}
    (h : ((es.find? fun e => e.1 = k).map Prod.snd).map f = some (f v)) :
    (put k v es).map (fun e => f e.2) = es.map fun e => f e.2 := by
  induction es with
  | nil => cases h
  | cons e es ih =>
    by_cases hk : e.1 = k
    · have hhead : f e.2 = f v := by simpa [hk] using h
      simp [put, hk, hhead]
    · have hrest := ih (by simpa [hk] using h)
      simp [put, hk, hrest]

/-- What the new value of a known key shares with the old one stays where it was. -/
theorem map_values_insert {t : Table κ β} {k : κ} {v : β} {f : β → γ}
    (h : (t.get? k).map f = some (f v)) : (t.insert k v).values.map f = t.values.map f := by
  rw [values, values, List.map_map, List.map_map]
  exact map_put h

/-! ### Tables put into tables -/

theorem map_get?_keys (t : Table κ β) :
    t.keys.map (fun k => (k, t.get? k)) = t.entries.map fun e => (e.1, some e.2) := by
  rw [keys, List.map_map]
  apply List.map_congr_left
  intro e he
  have hvalue : t.get? e.1 = some e.2 := get?_eq_some_iff.2 he
  simp [hvalue]

theorem eq_of_keys_of_get? {t u : Table κ β} (hkeys : t.keys = u.keys)
    (hget : ∀ k, t.get? k = u.get? k) : t = u := by
  have hmapped : t.entries.map (fun e => (e.1, some e.2)) =
      u.entries.map fun e => (e.1, some e.2) := by
    rw [← map_get?_keys, ← map_get?_keys, hkeys, funext hget]
  have hentries : t.entries = u.entries := by
    refine (List.map_inj_right ?_).1 hmapped
    rintro ⟨k, v⟩ ⟨k', v'⟩ h
    simpa using h
  cases t
  cases u
  subst hentries
  rfl

/-- The first table with the entries of the second one set, in their order. -/
def merge (t u : Table κ β) : Table κ β :=
  u.entries.foldl (fun t e => t.insert e.1 e.2) t

theorem get?_merge (t u : Table κ β) (k : κ) :
    (t.merge u).get? k = (u.get? k).or (t.get? k) := by
  obtain ⟨es, distinct⟩ := u
  simp only [merge, get?]
  induction es generalizing t with
  | nil => rfl
  | cons e es ih =>
    rw [List.map_cons, List.nodup_cons] at distinct
    obtain ⟨hfresh, hrest⟩ := distinct
    have hhead := get?_insert t e.1 k e.2
    simp only [get?] at hhead
    rw [List.foldl_cons, ih _ hrest, hhead]
    by_cases hk : k = e.1
    · -- No later entry sets this key again.
      subst hk
      have hlater : (es.find? fun d => d.1 = e.1) = none := by
        rw [List.find?_eq_none]
        intro d hd heq
        exact hfresh (of_decide_eq_true heq ▸ List.mem_map_of_mem hd)
      simp [hlater]
    · simp [hk, Ne.symm hk]

theorem keys_merge (t u : Table κ β) :
    (t.merge u).keys = t.keys ++ u.keys.filter fun k => k ∉ t.keys := by
  obtain ⟨es, distinct⟩ := u
  show (es.foldl _ t).keys = t.keys ++ (es.map Prod.fst).filter _
  induction es generalizing t with
  | nil => simp
  | cons e es ih =>
    rw [List.map_cons, List.nodup_cons] at distinct
    obtain ⟨hfresh, hrest⟩ := distinct
    rw [List.foldl_cons, ih _ hrest, keys_insert, List.map_cons]
    by_cases hk : e.1 ∈ t.keys
    · rw [if_pos hk, List.filter_cons_of_neg (by simpa using hk)]
    · rw [if_neg hk, List.filter_cons_of_pos (by simpa using hk), List.append_assoc,
        List.singleton_append]
      congr 2
      apply List.filter_congr
      intro k hmem
      have hne : k ≠ e.1 := fun h => hfresh (h ▸ hmem)
      simp [hne]

theorem merge_insert (t u : Table κ β) (k : κ) (v : β) :
    t.merge (u.insert k v) = (t.merge u).insert k v := by
  apply eq_of_keys_of_get?
  · rw [keys_merge, keys_insert, keys_insert, keys_merge]
    by_cases hu : k ∈ u.keys <;> by_cases ht : k ∈ t.keys <;> simp [hu, ht]
  · intro x
    rw [get?_merge, get?_insert, get?_insert, get?_merge]
    by_cases hx : x = k <;> simp [hx]

end SqlMapper.Table

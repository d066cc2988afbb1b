/-!
# Ordered tables

A table holds one value for each of its keys and lists them in the order in which the keys came in.
A key that comes in again keeps its place. That keys do not repeat is part of the type.

## Main definitions

* `Table.insert`: sets the value of a key, known or new.
* `Table.insertNew`: sets the value of a key only if the key is new.
* `Table.erase`: removes a key.
* `Table.get?`: the value of a key.

## Main statements

* `Table.get?_insert`, `Table.get?_insertNew`, `Table.get?_erase`: what a change does to the values.
* `Table.keys_insert`, `Table.keys_erase`: what a change does to the order of the keys.
-/

namespace SqlMapper

/-- Values by key, in the order in which the keys came in. -/
structure Table (κ β : Type) where
  entries : List (κ × β)
  distinct : (entries.map Prod.fst).Nodup

namespace Table

variable {κ β : Type} [DecidableEq κ]

/-- The entries with the value of a key set, in place if the key is known. -/
def put (k : κ) (v : β) : List (κ × β) → List (κ × β)
  | [] => [(k, v)]
  | e :: es => if e.1 = k then (k, v) :: es else e :: put k v es

/-- Setting a value adds at most that key. -/
theorem mem_keys_put {k x : κ} {v : β} {es : List (κ × β)} :
    x ∈ (put k v es).map Prod.fst ↔ x = k ∨ x ∈ es.map Prod.fst := by
  induction es with
  | nil => simp [put]
  | cons e es ih =>
    by_cases h : e.1 = k
    · subst h
      simp [put]
    · simp only [put, h, if_false, List.map_cons, List.mem_cons, ih]
      grind

/-- Setting a value keeps keys distinct. -/
theorem nodup_put {k : κ} {v : β} {es : List (κ × β)} (h : (es.map Prod.fst).Nodup) :
    ((put k v es).map Prod.fst).Nodup := by
  induction es with
  | nil => simp [put]
  | cons e es ih =>
    rw [List.map_cons, List.nodup_cons] at h
    by_cases hk : e.1 = k
    · subst hk
      simpa [put] using h
    · rw [put, if_neg hk, List.map_cons, List.nodup_cons, mem_keys_put]
      exact ⟨by grind, ih h.2⟩

/-- The table without entries. -/
def empty : Table κ β :=
  ⟨[], by simp⟩

instance : Inhabited (Table κ β) :=
  ⟨empty⟩

/-- The keys of a table, in order. -/
def keys (t : Table κ β) : List κ :=
  t.entries.map Prod.fst

/-- The values of a table, in the order of their keys. -/
def values (t : Table κ β) : List β :=
  t.entries.map Prod.snd

/-- The number of keys. -/
def size (t : Table κ β) : Nat :=
  t.entries.length

/-- Whether the table has no keys. -/
def isEmpty (t : Table κ β) : Bool :=
  t.entries.isEmpty

/-- The value of a key. -/
def get? (t : Table κ β) (k : κ) : Option β :=
  (t.entries.find? fun e => e.1 = k).map Prod.snd

/-- Whether the table has this key. -/
def contains (t : Table κ β) (k : κ) : Bool :=
  t.entries.any fun e => e.1 = k

/-- The table with the value of a key set. A new key goes to the end. -/
def insert (t : Table κ β) (k : κ) (v : β) : Table κ β :=
  ⟨put k v t.entries, nodup_put t.distinct⟩

/-- The table with a value for the key, which keeps the one it has. -/
def insertNew (t : Table κ β) (k : κ) (v : β) : Table κ β :=
  if t.contains k then t else t.insert k v

/-- The table without a key. The others keep their order. -/
def erase (t : Table κ β) (k : κ) : Table κ β :=
  ⟨t.entries.filter fun e => e.1 ≠ k, t.distinct.sublist (List.filter_sublist.map _)⟩

/-! ### Values and keys after a change -/

@[simp]
theorem get?_empty (x : κ) : (empty : Table κ β).get? x = none :=
  rfl

/-- A key is known exactly if it is among the keys. -/
theorem contains_iff_mem_keys {t : Table κ β} {k : κ} : t.contains k = true ↔ k ∈ t.keys := by
  simp [contains, keys]

/-- A key is known exactly if it has a value. -/
theorem contains_eq_isSome_get? (t : Table κ β) (k : κ) : t.contains k = (t.get? k).isSome := by
  rw [contains, get?, Option.isSome_map]
  induction t.entries with
  | nil => rfl
  | cons e es ih => by_cases h : e.1 = k <;> simp_all

/-- Setting a value changes the value of that key only. -/
theorem find?_put (k x : κ) (v : β) (es : List (κ × β)) :
    ((put k v es).find? fun e => e.1 = x).map Prod.snd =
      if x = k then some v else (es.find? fun e => e.1 = x).map Prod.snd := by
  induction es with
  | nil => by_cases h : k = x <;> simp [put, h, eq_comm]
  | cons e es ih =>
    by_cases hk : e.1 = k
    · subst hk
      by_cases h : e.1 = x
      · simp [put, h]
      · simp [put, h, Ne.symm h]
    · by_cases h : e.1 = x
      · have hx : x ≠ k := fun hx => hk (h.trans hx)
        simp [put, h, hx]
      · simpa [put, hk, h] using ih

theorem get?_insert (t : Table κ β) (k x : κ) (v : β) :
    (t.insert k v).get? x = if x = k then some v else t.get? x :=
  find?_put k x v t.entries

theorem get?_insertNew (t : Table κ β) (k x : κ) (v : β) :
    (t.insertNew k v).get? x =
      if x = k then some ((t.get? k).getD v) else t.get? x := by
  unfold insertNew
  split
  · next h =>
    rw [contains_eq_isSome_get?, Option.isSome_iff_exists] at h
    obtain ⟨w, hw⟩ := h
    by_cases hx : x = k
    · simp [hx, hw]
    · simp [hx]
  · next h =>
    rw [contains_eq_isSome_get?, Bool.not_eq_true, Option.isSome_eq_false_iff,
      Option.isNone_iff_eq_none] at h
    simp [get?_insert, h]

theorem get?_erase (t : Table κ β) (k x : κ) :
    (t.erase k).get? x = if x = k then none else t.get? x := by
  simp only [get?, erase, List.find?_filter]
  by_cases hx : x = k
  · subst hx
    simp [List.find?_eq_none]
  · rw [if_neg hx]
    congr 2
    funext e
    by_cases h : e.1 = x <;> simp [h, hx]

/-- Setting the value of a known key keeps the keys; a new one goes to the end. -/
theorem keys_put (k : κ) (v : β) (es : List (κ × β)) :
    (put k v es).map Prod.fst =
      if k ∈ es.map Prod.fst then es.map Prod.fst else es.map Prod.fst ++ [k] := by
  induction es with
  | nil => simp [put]
  | cons e es ih =>
    by_cases hk : e.1 = k
    · subst hk
      simp [put]
    · rw [put, if_neg hk, List.map_cons, ih]
      by_cases hm : k ∈ es.map Prod.fst <;> simp [hm, Ne.symm hk]

theorem keys_insert (t : Table κ β) (k : κ) (v : β) :
    (t.insert k v).keys = if k ∈ t.keys then t.keys else t.keys ++ [k] :=
  keys_put k v t.entries

theorem keys_erase (t : Table κ β) (k : κ) :
    (t.erase k).keys = t.keys.filter fun x => x ≠ k := by
  simp [keys, erase, List.filter_map, Function.comp_def]

end Table

end SqlMapper

import SqlMapper.Model.Members

/-!
# First items of each key

Going through a list and keeping the first item of each key can be done piece by piece, as long as
the keys met so far are remembered as a set. Where keys tell items apart, it is the removal of
repetitions.

## Main statements

* `firstOfEach_append`: one list behind another.
* `firstOfEach_map`: keys of images.
* `nodup_keys_firstOfEach`: no key is kept twice.
* `firstOfEach_eq_eraseDups`: keys that tell items apart.
* `eraseDups_concat`: one more name.
-/

namespace SqlMapper

variable {α β : Type} {key : α → String}

theorem firstOfEach_cons_of_mem {seen : List String} {a : α} (h : key a ∈ seen) (as : List α) :
    firstOfEach key seen (a :: as) = firstOfEach key seen as := by
  rw [firstOfEach, if_pos h]

theorem firstOfEach_cons_of_not_mem {seen : List String} {a : α} (h : key a ∉ seen)
    (as : List α) :
    firstOfEach key seen (a :: as) = a :: firstOfEach key (key a :: seen) as := by
  rw [firstOfEach, if_neg h]

/-- It does not matter in what order, or how often, the keys have been seen. -/
theorem firstOfEach_congr {seen seen' : List String} (h : ∀ x, x ∈ seen ↔ x ∈ seen')
    (as : List α) : firstOfEach key seen as = firstOfEach key seen' as := by
  induction as generalizing seen seen' with
  | nil => rfl
  | cons a as ih =>
    by_cases ha : key a ∈ seen
    · rw [firstOfEach_cons_of_mem ha, firstOfEach_cons_of_mem ((h _).1 ha), ih h]
    · have hcons : ∀ x, x ∈ key a :: seen ↔ x ∈ key a :: seen' := by
        intro x
        rw [List.mem_cons, List.mem_cons, h x]
      rw [firstOfEach_cons_of_not_mem ha, firstOfEach_cons_of_not_mem (mt (h _).2 ha), ih hcons]

theorem firstOfEach_append (seen : List String) (as bs : List α) :
    firstOfEach key seen (as ++ bs) = firstOfEach key seen as ++
      firstOfEach key ((firstOfEach key seen as).map key ++ seen) bs := by
  induction as generalizing seen with
  | nil => rfl
  | cons a as ih =>
    rw [List.cons_append]
    by_cases ha : key a ∈ seen
    · rw [firstOfEach_cons_of_mem ha, firstOfEach_cons_of_mem ha, ih]
    · rw [firstOfEach_cons_of_not_mem ha, firstOfEach_cons_of_not_mem ha, ih, List.cons_append]
      congr 2
      apply firstOfEach_congr
      intro x
      simp only [List.map_cons, List.cons_append, List.mem_append, List.mem_cons]
      grind

theorem firstOfEach_map (f : β → α) (seen : List String) (bs : List β) :
    firstOfEach key seen (bs.map f) = (firstOfEach (fun b => key (f b)) seen bs).map f := by
  induction bs generalizing seen with
  | nil => rfl
  | cons b bs ih =>
    simp only [List.map_cons, firstOfEach]
    split
    · exact ih seen
    · rw [List.map_cons, ih]

theorem mem_of_mem_firstOfEach {seen : List String} {as : List α} {a : α}
    (h : a ∈ firstOfEach key seen as) : a ∈ as ∧ key a ∉ seen := by
  induction as generalizing seen with
  | nil => cases h
  | cons b as ih =>
    by_cases hb : key b ∈ seen
    · rw [firstOfEach_cons_of_mem hb] at h
      exact ⟨List.mem_cons_of_mem b (ih h).1, (ih h).2⟩
    · rw [firstOfEach_cons_of_not_mem hb, List.mem_cons] at h
      rcases h with rfl | h
      · exact ⟨List.mem_cons_self, hb⟩
      · exact ⟨List.mem_cons_of_mem b (ih h).1, fun hseen => (ih h).2 (List.mem_cons_of_mem _ hseen)⟩

theorem nodup_keys_firstOfEach (seen : List String) (as : List α) :
    ((firstOfEach key seen as).map key).Nodup := by
  induction as generalizing seen with
  | nil => exact List.nodup_nil
  | cons a as ih =>
    by_cases ha : key a ∈ seen
    · rw [firstOfEach_cons_of_mem ha]
      exact ih seen
    · rw [firstOfEach_cons_of_not_mem ha, List.map_cons, List.nodup_cons]
      refine ⟨fun hmem => ?_, ih _⟩
      obtain ⟨b, hb, hkey⟩ := List.mem_map.1 hmem
      exact (mem_of_mem_firstOfEach hb).2 (hkey ▸ List.mem_cons_self)

theorem firstOfEach_eq_eraseDups [DecidableEq α] (seen : List String) {as : List α}
    (hkey : ∀ a ∈ as, ∀ b ∈ as, key a = key b → a = b) :
    firstOfEach key seen as = (as.filter fun a => key a ∉ seen).eraseDups := by
  induction as generalizing seen with
  | nil => rfl
  | cons a as ih =>
    have hrest : ∀ b ∈ as, ∀ c ∈ as, key b = key c → b = c := fun b hb c hc =>
      hkey b (List.mem_cons_of_mem a hb) c (List.mem_cons_of_mem a hc)
    by_cases ha : key a ∈ seen
    · rw [firstOfEach_cons_of_mem ha, ih seen hrest, List.filter_cons_of_neg (by simpa using ha)]
    · rw [firstOfEach_cons_of_not_mem ha, ih (key a :: seen) hrest,
        List.filter_cons_of_pos (by simpa using ha), List.eraseDups_cons, List.filter_filter]
      congr 2
      apply List.filter_congr
      intro b hb
      have hsame : key b = key a ↔ b = a :=
        ⟨hkey b (List.mem_cons_of_mem a hb) a List.mem_cons_self, fun h => h ▸ rfl⟩
      rw [Bool.eq_iff_iff]
      simp [hsame]

/-- One more name at the end counts only if it is new. -/
theorem eraseDups_concat (names : List String) (name : String) :
    (names ++ [name]).eraseDups =
      if name ∈ names then names.eraseDups else names.eraseDups ++ [name] := by
  rw [List.eraseDups_append, List.removeAll]
  by_cases hknown : name ∈ names
  · simp [hknown]
  · simp [hknown, List.eraseDups_cons]

end SqlMapper

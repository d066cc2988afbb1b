/-!
# First entries

Searching a list, said without searching: what is found is an entry with the property that is
looked for, and no entry in front of it has that property.

## Main definitions

* `IsFirst`: the first entry of a list with a property.

## Main statements

* `find?_eq_some_iff_isFirst`, `findSome?_eq_some_iff_isFirst`: searches find first entries.
* `find?_reverse_eq_some_iff`: a search from the end finds the last one.
* `isFirst_filter`: the first entry of what a filter leaves.
* `isFirst_iff_of_pairwise`: the first entry of a list by falling rank is the highest one.
-/

namespace SqlMapper

/-- The entry is the first one of the list with the property. -/
def IsFirst {α : Type} (P : α → Prop) (l : List α) (a : α) : Prop :=
  ∃ front back, l = front ++ a :: back ∧ P a ∧ ∀ b ∈ front, ¬P b

variable {α β : Type} {P : α → Prop} {a b : α} {l : List α}

theorem not_isFirst_nil : ¬IsFirst P [] a := by
  rintro ⟨front, back, hnil, -⟩
  simp at hnil

theorem isFirst_cons : IsFirst P (b :: l) a ↔ b = a ∧ P a ∨ ¬P b ∧ IsFirst P l a := by
  constructor
  · rintro ⟨front, back, hsplit, ha, hfront⟩
    rcases List.cons_eq_append_iff.1 hsplit with ⟨rfl, hcons⟩ | ⟨rest, rfl, hrest⟩
    · exact .inl ⟨(List.cons.inj hcons).1.symm, ha⟩
    · rw [List.forall_mem_cons] at hfront
      exact .inr ⟨hfront.1, rest, back, hrest, ha, hfront.2⟩
  · rintro (⟨rfl, ha⟩ | ⟨hb, front, back, rfl, ha, hfront⟩)
    · exact ⟨[], l, rfl, ha, by simp⟩
    · exact ⟨b :: front, back, rfl, ha, List.forall_mem_cons.2 ⟨hb, hfront⟩⟩

theorem isFirst_filter {q : α → Bool} :
    IsFirst P (l.filter q) a ↔ IsFirst (fun x => q x = true ∧ P x) l a := by
  induction l with
  | nil => simp [not_isFirst_nil]
  | cons b l ih =>
    rw [isFirst_cons]
    by_cases hb : q b = true
    · rw [List.filter_cons_of_pos hb, isFirst_cons, ih]
      grind
    · rw [List.filter_cons_of_neg hb, ih]
      grind

theorem isFirst_congr {Q : α → Prop} (h : ∀ x ∈ l, P x ↔ Q x) : IsFirst P l a ↔ IsFirst Q l a := by
  induction l with
  | nil => simp [not_isFirst_nil]
  | cons b l ih =>
    rw [List.forall_mem_cons] at h
    rw [isFirst_cons, isFirst_cons, ih h.2, h.1]
    refine or_congr_left (and_congr_right ?_)
    rintro rfl
    exact h.1

theorem isFirst_iff_of_pairwise {rank : α → Nat} (h : l.Pairwise fun x y => rank y < rank x) :
    IsFirst P l a ↔ a ∈ l ∧ P a ∧ ∀ b ∈ l, rank a < rank b → ¬P b := by
  constructor
  · rintro ⟨front, back, rfl, ha, hfront⟩
    have hback := (List.pairwise_cons.1 (List.pairwise_append.1 h).2.1).1
    refine ⟨by simp, ha, fun b hb hrank => ?_⟩
    rcases List.mem_append.1 hb with hb | hb
    · exact hfront b hb
    · rcases List.mem_cons.1 hb with rfl | hb
      · exact absurd hrank (Nat.lt_irrefl _)
      · exact absurd (hback b hb) (by omega)
  · rintro ⟨hmem, ha, hhigher⟩
    obtain ⟨front, back, rfl⟩ := List.append_of_mem hmem
    refine ⟨front, back, rfl, ha, fun b hb => hhigher b (by simp [hb]) ?_⟩
    exact (List.pairwise_append.1 h).2.2 b hb a (by simp)

theorem find?_eq_some_iff_isFirst {q : α → Bool} :
    l.find? q = some a ↔ IsFirst (fun x => q x = true) l a := by
  rw [List.find?_eq_some_iff_append]
  constructor
  · rintro ⟨ha, front, back, hsplit, hfront⟩
    exact ⟨front, back, hsplit, ha, by simpa using hfront⟩
  · rintro ⟨front, back, hsplit, ha, hfront⟩
    exact ⟨ha, front, back, hsplit, by simpa using hfront⟩

theorem findSome?_eq_some_iff_isFirst {f : α → Option β} {y : β} :
    l.findSome? f = some y ↔ ∃ a, IsFirst (fun x => (f x).isSome = true) l a ∧ f a = some y := by
  rw [List.findSome?_eq_some_iff]
  constructor
  · rintro ⟨front, a, back, hsplit, ha, hfront⟩
    refine ⟨a, ⟨front, back, hsplit, by simp [ha], ?_⟩, ha⟩
    intro b hb
    simp [hfront b hb]
  · rintro ⟨a, ⟨front, back, hsplit, -, hfront⟩, ha⟩
    exact ⟨front, a, back, hsplit, ha, by simpa using hfront⟩

theorem find?_reverse_eq_some_iff {q : α → Bool} :
    l.reverse.find? q = some a ↔
      ∃ front back, l = front ++ a :: back ∧ q a = true ∧ ∀ b ∈ back, q b = false := by
  rw [List.find?_eq_some_iff_append]
  constructor
  · rintro ⟨ha, back, front, hsplit, hback⟩
    refine ⟨front.reverse, back.reverse, ?_, ha, by simpa using hback⟩
    have hreverse := congrArg List.reverse hsplit
    simpa using hreverse
  · rintro ⟨front, back, rfl, ha, hback⟩
    exact ⟨ha, back.reverse, front.reverse, by simp, by simpa using hback⟩

end SqlMapper

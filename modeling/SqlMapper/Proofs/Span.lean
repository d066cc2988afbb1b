import Mathlib.Data.List.Pairwise
import SqlMapper.Position

/-!
# Spans of one text

How the spans of a text lie to each other, and what that says about a search among them. Of spans
that no caret touches at once, a search by caret finds the only one that is touched. Where spans
lie in each other or share nothing, the shortest one around an offset lies in all the others.

## Main definitions

* `Span.Apart`: spans that no caret touches at once.
* `Span.NestedOrDisjoint`: spans of which one lies in the other, or that share nothing.

## Main statements

* `find?_eq_some_of_unique`: a search that only one element satisfies.
* `Span.find?_touches`: the search for the span that a caret touches.
* `Span.NestedOrDisjoint.inside_of_length_le`: shorter spans around an offset lie further inside.
-/

namespace SqlMapper

variable {α : Type}

/-- A search finds the only element that satisfies it. -/
theorem find?_eq_some_of_unique {l : List α} {p : α → Bool} {a : α} (ha : a ∈ l)
    (hp : p a = true) (hunique : ∀ b ∈ l, p b = true → b = a) : l.find? p = some a := by
  cases hfound : l.find? p with
  | none => exact absurd hp (List.find?_eq_none.1 hfound a ha)
  | some b => rw [hunique b (List.mem_of_find?_eq_some hfound) (List.find?_some hfound)]

namespace Span

variable {s t : Span} {offset : Nat}

theorem touches_iff : s.touches offset = true ↔ s.start ≤ offset ∧ offset ≤ s.stop := by
  simp [touches]

/-- No caret touches both spans. -/
def Apart (s t : Span) : Prop :=
  ∀ offset, s.touches offset = true → t.touches offset = false

theorem Apart.symm (h : s.Apart t) : t.Apart s := by
  intro offset ht
  rw [Bool.eq_false_iff]
  intro hs
  exact Bool.false_ne_true ((h offset hs).symm.trans ht)

theorem apart_of_stop_lt (h : s.stop < t.start) : s.Apart t := by
  intro offset hs
  rw [Bool.eq_false_iff, ne_eq, touches_iff]
  rw [touches_iff] at hs
  omega

/-- Of things that stand apart, a caret finds the one that it touches. -/
theorem find?_touches {place : α → Span} {l : List α} {a : α}
    (hapart : l.Pairwise fun b c => (place b).Apart (place c)) (ha : a ∈ l)
    (htouches : (place a).touches offset = true) :
    (l.find? fun b => (place b).touches offset) = some a := by
  have : Std.Symm fun b c => (place b).Apart (place c) := ⟨fun _ _ => Apart.symm⟩
  apply find?_eq_some_of_unique ha htouches
  intro b hb hb_touches
  by_contra hne
  exact Bool.false_ne_true ((hapart.forall hb ha hne offset hb_touches).symm.trans htouches)

/-! ### Spans in each other -/

theorem contains_iff : s.contains offset = true ↔ s.start ≤ offset ∧ offset < s.stop := by
  simp [contains]

/-- The span begins and ends within the other one. -/
def Inside (s t : Span) : Prop :=
  t.start ≤ s.start ∧ s.stop ≤ t.stop

/-- One of the spans ends before the other one begins. -/
def Disjoint (s t : Span) : Prop :=
  s.stop ≤ t.start ∨ t.stop ≤ s.start

/-- One of the spans lies in the other one, or they share nothing. -/
def NestedOrDisjoint (s t : Span) : Prop :=
  s.Inside t ∨ t.Inside s ∨ s.Disjoint t

instance (s t : Span) : Decidable (s.Inside t) :=
  inferInstanceAs (Decidable (t.start ≤ s.start ∧ s.stop ≤ t.stop))

instance (s t : Span) : Decidable (s.Disjoint t) :=
  inferInstanceAs (Decidable (s.stop ≤ t.start ∨ t.stop ≤ s.start))

instance (s t : Span) : Decidable (s.NestedOrDisjoint t) :=
  inferInstanceAs (Decidable (s.Inside t ∨ t.Inside s ∨ s.Disjoint t))

theorem Inside.antisymm (hst : s.Inside t) (hts : t.Inside s) : s = t := by
  obtain ⟨start, stop⟩ := s
  obtain ⟨start', stop'⟩ := t
  simp only [Inside] at hst hts
  rw [Span.mk.injEq]
  omega

/-- Of two spans around an offset the shorter one lies in the other one. -/
theorem NestedOrDisjoint.inside_of_length_le (h : s.NestedOrDisjoint t)
    (hs : s.contains offset = true) (ht : t.contains offset = true)
    (hle : s.length ≤ t.length) : s.Inside t := by
  rw [contains_iff] at hs ht
  simp only [NestedOrDisjoint, Inside, Disjoint, length] at *
  omega

end Span

end SqlMapper

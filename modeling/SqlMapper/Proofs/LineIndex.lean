import Mathlib.Algebra.Group.Nat.Defs
import SqlMapper.LineIndex

/-!
# Offsets and positions

The starts of the lines of a text increase from zero on. The line of an offset is therefore the one
line that starts at or before the offset and does not end before it, and an offset can be read off
its position again. Only texts that are too long for the coordinates of a position are exempt.

## Main statements

* `LineIndex.lineStart?_lineOf`: an offset lies between the start of its line and that of the next.
* `LineIndex.offset?_position`: the position of an offset leads back to the offset.
* `LineIndex.region_inj`: spans in different places have different regions.
-/

namespace SqlMapper.LineIndex

/-! ### Line starts -/

/-- A line behind a newline starts behind the place where the text begins. -/
theorem lt_of_mem_startsAfter {offset start : Nat} {cs : List Char}
    (h : start ∈ startsAfter offset cs) : offset < start := by
  induction cs generalizing offset with
  | nil => simp [startsAfter] at h
  | cons c cs ih =>
    have hsize : 0 < c.utf8Size := c.utf8Size_pos
    have hrest : start ∈ startsAfter (offset + c.utf8Size) cs → offset < start := by
      intro hmem
      have := ih hmem
      omega
    simp only [startsAfter] at h
    split at h
    · rcases List.mem_cons.1 h with rfl | hmem
      · omega
      · exact hrest hmem
    · exact hrest h

theorem pairwise_startsAfter (offset : Nat) (cs : List Char) :
    (startsAfter offset cs).Pairwise (· < ·) := by
  induction cs generalizing offset with
  | nil => exact List.Pairwise.nil
  | cons c cs ih =>
    simp only [startsAfter]
    split
    · exact List.pairwise_cons.2 ⟨fun _ hmem => lt_of_mem_startsAfter hmem, ih _⟩
    · exact ih _

/-- The lines of a text start further and further behind. -/
theorem pairwise_starts (text : String) : (ofText text).starts.Pairwise (· < ·) :=
  List.pairwise_cons.2 ⟨fun _ hmem => lt_of_mem_startsAfter hmem, pairwise_startsAfter _ _⟩

theorem lineStart?_zero (text : String) : (ofText text).lineStart? 0 = some 0 :=
  rfl

/-- In front of a line stand at least as many bytes as lines. -/
theorem le_of_lineStart?_eq_some {text : String} {line start : Nat}
    (h : (ofText text).lineStart? line = some start) : line ≤ start := by
  induction line generalizing start with
  | zero => omega
  | succ line ih =>
    obtain ⟨hlt, hstart⟩ := List.getElem?_eq_some_iff.1 h
    have hprevious : line < (ofText text).starts.length := by omega
    have hle : line ≤ (ofText text).starts[line] := ih (List.getElem?_eq_getElem hprevious)
    have hincreasing : (ofText text).starts[line] < (ofText text).starts[line + 1] :=
      List.pairwise_iff_getElem.1 (pairwise_starts text) _ _ _ _ (Nat.lt_succ_self line)
    omega

/-! ### The line of an offset -/

/-- In an increasing list, the entries that do not exceed a bound come first. -/
theorem le_iff_lt_countP {starts : List Nat} (h : starts.Pairwise (· < ·)) {i start : Nat}
    (hstart : starts[i]? = some start) (offset : Nat) :
    start ≤ offset ↔ i < starts.countP (· ≤ offset) := by
  induction starts generalizing i with
  | nil => simp at hstart
  | cons s starts ih =>
    rw [List.pairwise_cons] at h
    obtain ⟨hfirst, hrest⟩ := h
    by_cases hs : s ≤ offset
    · rw [List.countP_cons_of_pos (by simpa using hs)]
      cases i with
      | zero =>
        obtain rfl : s = start := by simpa using hstart
        simp [hs]
      | succ i => simpa using ih hrest (by simpa using hstart)
    · -- The first entry is too large already, and so are all others.
      have hnone : starts.countP (· ≤ offset) = 0 := by
        rw [List.countP_eq_zero]
        intro t ht
        have := hfirst t ht
        simp only [decide_eq_true_eq]
        omega
      have hlarge : offset < start := by
        rcases List.mem_cons.1 (List.mem_of_getElem? hstart) with rfl | hmem
        · omega
        · have := hfirst start hmem
          omega
      rw [List.countP_cons_of_neg (by simpa using hs), hnone]
      omega

/-- A line starts at or before an offset exactly if it is the line of the offset or one above. -/
theorem le_iff_le_lineOf {text : String} {line start : Nat}
    (h : (ofText text).lineStart? line = some start) (offset : Nat) :
    start ≤ offset ↔ line ≤ (ofText text).lineOf offset := by
  have hfirst : 0 < (ofText text).starts.countP (· ≤ offset) :=
    (le_iff_lt_countP (pairwise_starts text) (lineStart?_zero text) offset).1 (Nat.zero_le _)
  rw [le_iff_lt_countP (pairwise_starts text) h offset, lineOf]
  omega

/-- The line of an offset starts at or before it, and the next line, if any, starts behind it. -/
theorem lineStart?_lineOf (text : String) (offset : Nat) :
    ∃ start, (ofText text).lineStart? ((ofText text).lineOf offset) = some start ∧
      start ≤ offset ∧
      ∀ next, (ofText text).lineStart? ((ofText text).lineOf offset + 1) = some next →
        offset < next := by
  have hlt : (ofText text).lineOf offset < (ofText text).starts.length := by
    have hle : (ofText text).starts.countP (· ≤ offset) ≤ (ofText text).starts.length :=
      List.countP_le_length
    have hpos : 0 < (ofText text).starts.length := Nat.succ_pos _
    rw [lineOf]
    omega
  have hstart := List.getElem?_eq_getElem hlt
  refine ⟨_, hstart, (le_iff_le_lineOf hstart offset).2 (Nat.le_refl _), ?_⟩
  intro next hnext
  have hbehind := le_iff_le_lineOf hnext offset
  omega

/-! ### Positions -/

/-- The position of an offset in a text: neither coordinate is cut off, as neither exceeds the
offset. -/
theorem position_eq {text : String} {offset start : Nat}
    (hoffset : offset ≤ Text.byteLength text) (hlength : Text.byteLength text < 2 ^ 32)
    (hstart : (ofText text).lineStart? ((ofText text).lineOf offset) = some start) :
    (ofText text).position offset = ⟨(ofText text).lineOf offset, offset - start⟩ := by
  have hline : (ofText text).lineOf offset ≤ start := le_of_lineStart?_eq_some hstart
  have hle : start ≤ offset := (le_iff_le_lineOf hstart offset).2 (Nat.le_refl _)
  have hmin : min offset (ofText text).length = offset := Nat.min_eq_left hoffset
  simp only [position, lineColumn, hmin, hstart, Option.getD_some, maxCoordinate,
    Position.mk.injEq]
  omega

/-- The position of an offset leads back to the offset. -/
theorem offset?_position {text : String} {offset : Nat} (hoffset : offset ≤ Text.byteLength text)
    (hlength : Text.byteLength text < 2 ^ 32) :
    (ofText text).offset? ((ofText text).position offset) = some offset := by
  obtain ⟨start, hstart, hle, hnext⟩ := lineStart?_lineOf text offset
  have hend : offset ≤ (ofText text).lineEnd ((ofText text).lineOf offset) := by
    unfold lineEnd
    split
    · next next heq =>
      have := hnext next heq
      omega
    · exact hoffset
  have hback : start + (offset - start) = offset := by omega
  simp [offset?, position_eq hoffset hlength hstart, hstart, hback, hend]

/-- Different offsets in a text have different positions. -/
theorem position_inj {text : String} {offset offset' : Nat}
    (hoffset : offset ≤ Text.byteLength text) (hoffset' : offset' ≤ Text.byteLength text)
    (hlength : Text.byteLength text < 2 ^ 32)
    (h : (ofText text).position offset = (ofText text).position offset') : offset = offset' := by
  have hback := offset?_position hoffset hlength
  rw [h, offset?_position hoffset' hlength] at hback
  exact (Option.some.inj hback).symm

/-- Spans of a text that have the same region are the same. -/
theorem region_inj {text : String} {s t : Span} (hs : s.Within (Text.byteLength text))
    (ht : t.Within (Text.byteLength text)) (hlength : Text.byteLength text < 2 ^ 32)
    (h : (ofText text).region s = (ofText text).region t) : s = t := by
  obtain ⟨hstart, hstop⟩ := Region.mk.inj h
  have hstarts : s.start = t.start :=
    position_inj (Nat.le_trans hs.1 hs.2) (Nat.le_trans ht.1 ht.2) hlength hstart
  have hstops : s.stop = t.stop := position_inj hs.2 ht.2 hlength hstop
  cases s
  cases t
  simp_all

end SqlMapper.LineIndex

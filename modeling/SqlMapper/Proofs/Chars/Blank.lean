import SqlMapper.Chars.Blank
import SqlMapper.Chars.Word

/-!
# Blanks around a text

No blank belongs to a word and digits do, so that trimming stops at any of them.

## Main statements

* `Chars.isBlank_of_isWord`, `Chars.isWord_of_isDigit`: kinds of characters.
* `Chars.dropEndWhile_append`: taking characters off the end.
* `Chars.trim_between`, `Chars.exists_trim_between`: a text and the blanks around it.
* `Chars.isBlank_head?_trim`, `Chars.isBlank_getLast?_trim`: the ends of a trimmed text.
* `Chars.isBlank_of_mem_trim`: a text with blanks at its ends only.
-/

namespace SqlMapper.Chars

/-- The code points of the blanks. -/
def blankCodes : List Nat :=
  [0x9, 0xA, 0xB, 0xC, 0xD, 0x20, 0x85, 0xA0, 0x1680, 0x2000, 0x2001, 0x2002, 0x2003, 0x2004,
    0x2005, 0x2006, 0x2007, 0x2008, 0x2009, 0x200A, 0x2028, 0x2029, 0x202F, 0x205F, 0x3000]

theorem toNat_mem_blankCodes {c : Char} (h : isBlank c = true) : c.toNat ∈ blankCodes := by
  simp only [isBlank, Bool.or_eq_true, Bool.and_eq_true, decide_eq_true_eq, beq_iff_eq] at h
  simp only [blankCodes, List.mem_cons, List.not_mem_nil, or_false]
  omega

theorem isBlank_of_isWord {c : Char} (h : isWord c = true) : isBlank c = false := by
  have hnone : ∀ n ∈ blankCodes, (Word.ranges.any fun r => r.1 ≤ n && n ≤ r.2) = false := by
    -- one code at a time, since the table of ranges is long
    simp only [blankCodes, List.forall_mem_cons]
    and_intros <;> decide +kernel
  rw [Bool.eq_false_iff]
  intro hblank
  have hno := hnone c.toNat (toNat_mem_blankCodes hblank)
  unfold isWord at h
  rw [hno] at h
  cases h

theorem isWord_of_isBlank {c : Char} (h : isBlank c = true) : isWord c = false := by
  rw [Bool.eq_false_iff]
  intro hword
  rw [isBlank_of_isWord hword] at h
  cases h

theorem isWord_of_isDigit {c : Char} (h : c.isDigit = true) : isWord c = true := by
  have hrange : 0x30 ≤ c.toNat ∧ c.toNat ≤ 0x39 := by
    simp only [Char.isDigit, Bool.and_eq_true, decide_eq_true_eq] at h
    exact ⟨UInt32.le_iff_toNat_le.1 h.1, UInt32.le_iff_toNat_le.1 h.2⟩
  exact List.any_eq_true.2 ⟨(0x30, 0x39), by decide +kernel, by simpa using hrange⟩

theorem isBlank_of_isDigit {c : Char} (h : c.isDigit = true) : isBlank c = false :=
  isBlank_of_isWord (isWord_of_isDigit h)

/-- Taking characters off the end stops at the last one that has to stay. -/
theorem dropEndWhile_append {p : Char → Bool} (front : List Char) {c : Char} {ends : List Char}
    (hc : p c = false) (hends : ∀ e ∈ ends, p e = true) :
    dropEndWhile p (front ++ [c] ++ ends) = front ++ [c] := by
  have hreverse : ∀ e ∈ ends.reverse, p e = true := by
    intro e he
    exact hends e (List.mem_reverse.1 he)
  rw [dropEndWhile, List.reverse_append, List.dropWhile_append_of_pos hreverse]
  simp [hc]

/-- Blanks around a text without blanks go when it is trimmed. -/
theorem trim_between {front text back : List Char} (hfront : ∀ c ∈ front, isBlank c = true)
    (htext : ∀ c ∈ text, isBlank c = false) (hback : ∀ c ∈ back, isBlank c = true) :
    trim (front ++ text ++ back) = text := by
  rw [trim, trimStart, List.append_assoc, List.dropWhile_append_of_pos hfront]
  rcases text.eq_nil_or_concat with rfl | ⟨start, last, rfl⟩
  · have hnone : (back ++ []).dropWhile isBlank = [] := List.dropWhile_append_of_pos hback
    rw [List.append_nil] at hnone
    rw [List.nil_append, hnone]
    rfl
  · rw [List.concat_eq_append] at htext ⊢
    have hstart : (start ++ [last] ++ back).dropWhile isBlank = start ++ [last] ++ back := by
      cases start with
      | nil => simp [htext last (by simp)]
      | cons c start => simp [htext c (by simp)]
    rw [hstart]
    exact dropEndWhile_append start (htext last (by simp)) hback

theorem exists_trim_between (text : List Char) : ∃ front back, text = front ++ trim text ++ back ∧
    (∀ c ∈ front, isBlank c = true) ∧ ∀ c ∈ back, isBlank c = true := by
  refine ⟨text.takeWhile isBlank, ((trimStart text).reverse.takeWhile isBlank).reverse, ?_, ?_, ?_⟩
  · have hback : trim text ++ ((trimStart text).reverse.takeWhile isBlank).reverse =
        trimStart text := by
      rw [trim, trimEnd, dropEndWhile, ← List.reverse_append, List.takeWhile_append_dropWhile,
        List.reverse_reverse]
    rw [List.append_assoc, hback, trimStart, List.takeWhile_append_dropWhile]
  · intro c hc
    exact List.all_eq_true.1 List.all_takeWhile c hc
  · intro c hc
    exact List.all_eq_true.1 List.all_takeWhile c (List.mem_reverse.1 hc)

theorem isBlank_head?_trim {text : List Char} {c : Char} (h : (trim text).head? = some c) :
    isBlank c = false := by
  -- What goes at the end leaves the first character alone.
  have hstart : trim text <+: trimStart text := by
    have hsuffix : (trimStart text).reverse.dropWhile isBlank <:+ (trimStart text).reverse :=
      List.dropWhile_suffix isBlank
    simpa [trim, trimEnd, dropEndWhile] using List.reverse_prefix.2 hsuffix
  obtain ⟨rest, hrest⟩ := hstart
  have hfirst := List.head?_dropWhile_not isBlank text
  rw [← trimStart, ← hrest, List.head?_append, h] at hfirst
  simpa using hfirst

theorem isBlank_getLast?_trim {text : List Char} {c : Char} (h : (trim text).getLast? = some c) :
    isBlank c = false := by
  have hlast := List.head?_dropWhile_not isBlank (trimStart text).reverse
  rw [trim, trimEnd, dropEndWhile, List.getLast?_reverse] at h
  simpa [h] using hlast

/-- What stands before another stays so when more is put in anywhere. -/
theorem sublist_dropLast {α : Type} {part text : List α} (h : part.Sublist text) :
    part.dropLast.Sublist text.dropLast := by
  have hreverse := h.reverse.tail.reverse
  simpa using hreverse

/-- What stands between two others stays so when more is put in anywhere. -/
theorem sublist_inner {α : Type} {part text : List α} (h : part.Sublist text) :
    part.tail.dropLast.Sublist text.tail.dropLast :=
  sublist_dropLast h.tail

/-- A text with blanks at its ends only has none left when it is trimmed. -/
theorem isBlank_of_mem_trim {text : List Char} (h : ∀ c ∈ text.tail.dropLast, isBlank c = false)
    {c : Char} (hc : c ∈ trim text) : isBlank c = false := by
  obtain ⟨front, back, htext, -⟩ := exists_trim_between text
  have hoccurs : trim text <:+: text := ⟨front, back, htext.symm⟩
  have hinner := sublist_inner hoccurs.sublist
  cases htrim : trim text with
  | nil => simp [htrim] at hc
  | cons first rest =>
    rw [htrim] at hc hinner
    rcases List.mem_cons.1 hc with rfl | hrest
    · have hfirst : (trim text).head? = some c := by rw [htrim, List.head?_cons]
      exact isBlank_head?_trim hfirst
    · rcases rest.eq_nil_or_concat with rfl | ⟨inner, last, rfl⟩
      · simp at hrest
      · rw [List.concat_eq_append] at htrim hrest hinner
        rcases List.mem_append.1 hrest with hmem | hmem
        · exact h c (hinner.subset (by simpa using hmem))
        · have hlast : (trim text).getLast? = some c := by
            rw [List.mem_singleton.1 hmem, htrim, ← List.cons_append, List.getLast?_concat]
          exact isBlank_getLast?_trim hlast

end SqlMapper.Chars

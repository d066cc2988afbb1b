import Mathlib.Data.List.DropRight
import SqlMapper.Proofs.Chars.Bytes
import SqlMapper.Proofs.LineIndex

/-!
# Lines in bytes

What a line index says, read off the bytes of the text alone. A line starts at the beginning of the
text and behind every newline; the line of an offset is the number of newlines in front of it and
its column the number of bytes since the last of them; and the positions that have an offset are
those on a line of the text, up to its end.

## Main definitions

* `LineIndex.startsInBytes`: where lines start among bytes.

## Main statements

* `LineIndex.startsAfter_eq_startsInBytes`: characters and bytes have the same line starts.
* `LineIndex.lineOf_eq_count`, `LineIndex.length_rtakeWhile_take`: line and column of an offset.
* `LineIndex.position_of_offset?`: the offset of a position leads back to the position.
* `LineIndex.isSome_offset?_iff`: which positions have an offset.
* `LineIndex.ofText_inverse`: offsets and positions are two names of the same places.
-/

namespace SqlMapper.LineIndex

/-! ### Line starts -/

/-- The offsets behind the newlines among bytes that begin at `offset`. -/
def startsInBytes (offset : Nat) : List UInt8 → List Nat
  | [] => []
  | b :: bs =>
    if b = newlineByte then (offset + 1) :: startsInBytes (offset + 1) bs
    else startsInBytes (offset + 1) bs

variable {offset start : Nat} {bs : List UInt8} {text : String}

theorem startsInBytes_append (h : newlineByte ∉ bs) (rest : List UInt8) :
    startsInBytes offset (bs ++ rest) = startsInBytes (offset + bs.length) rest := by
  induction bs generalizing offset with
  | nil => rfl
  | cons b bs ih =>
    rw [List.mem_cons, not_or] at h
    rw [List.cons_append, startsInBytes, if_neg (Ne.symm h.1), ih h.2, List.length_cons]
    congr 1
    omega

/-- Newlines stand at the same places among the characters of a text and among its bytes. -/
theorem startsAfter_eq_startsInBytes (offset : Nat) (cs : List Char) :
    startsAfter offset cs = startsInBytes offset (cs.flatMap String.utf8EncodeChar) := by
  induction cs generalizing offset with
  | nil => rfl
  | cons c cs ih =>
    rw [startsAfter, List.flatMap_cons]
    by_cases hc : c = '\n'
    · subst hc
      simp only [if_true, ih]
      rfl
    · rw [if_neg hc, ih, startsInBytes_append (mt newlineByte_mem_utf8EncodeChar.1 hc),
        String.length_utf8EncodeChar]

theorem starts_ofText (text : String) :
    (ofText text).starts = 0 :: startsInBytes 0 (Text.bytes text) := by
  rw [Text.bytes_eq_flatMap, ← startsAfter_eq_startsInBytes]
  rfl

theorem mem_startsInBytes :
    start ∈ startsInBytes offset bs ↔
      ∃ i, bs[i]? = some newlineByte ∧ start = offset + i + 1 := by
  induction bs generalizing offset with
  | nil => simp [startsInBytes]
  | cons b bs ih =>
    have hrest : start ∈ startsInBytes (offset + 1) bs ↔
        ∃ i, (b :: bs)[i + 1]? = some newlineByte ∧ start = offset + (i + 1) + 1 := by
      rw [ih]
      simp only [List.getElem?_cons_succ, Nat.add_assoc, Nat.add_comm 1]
    rw [← Nat.or_exists_add_one, ← hrest, startsInBytes]
    split
    · next hb => simp [hb]
    · next hb => simp [hb]

/-- A line starts where the text begins and behind every newline, and nowhere else. -/
theorem mem_starts_iff :
    start ∈ (ofText text).starts ↔
      start = 0 ∨ ∃ i, (Text.bytes text)[i]? = some newlineByte ∧ start = i + 1 := by
  simp [starts_ofText, mem_startsInBytes]

theorem le_byteLength_of_mem_starts (h : start ∈ (ofText text).starts) :
    start ≤ Text.byteLength text := by
  rw [← Text.length_bytes]
  rcases mem_starts_iff.1 h with rfl | ⟨i, hi, rfl⟩
  · exact Nat.zero_le _
  · exact (List.getElem?_eq_some_iff.1 hi).1

/-! ### Line and column of an offset -/

/-- Among the first bytes stand as many newlines as lines start behind newlines of theirs. -/
theorem countP_startsInBytes (offset n : Nat) (bs : List UInt8) :
    (startsInBytes offset bs).countP (· ≤ offset + n) = (bs.take n).count newlineByte := by
  induction bs generalizing offset n with
  | nil => simp [startsInBytes]
  | cons b bs ih =>
    cases n with
    | zero =>
      rw [List.take_zero, List.count_nil, List.countP_eq_zero]
      intro start hstart
      obtain ⟨i, -, rfl⟩ := mem_startsInBytes.1 hstart
      simp only [decide_eq_true_eq]
      omega
    | succ n =>
      have hoffset : offset + (n + 1) = offset + 1 + n := by omega
      rw [List.take_succ_cons, startsInBytes, hoffset]
      split
      · next hb => simp [hb, ih]
      · next hb => simp [hb, ih]

theorem lineOf_eq_count (text : String) (offset : Nat) :
    (ofText text).lineOf offset = ((Text.bytes text).take offset).count newlineByte := by
  have hcount := countP_startsInBytes 0 offset (Text.bytes text)
  rw [Nat.zero_add] at hcount
  simp [lineOf, starts_ofText, hcount]

/-- The bytes between the start of the line of an offset and the offset hold no newline. -/
theorem ne_newlineByte_of_le
    (hstart : (ofText text).lineStart? ((ofText text).lineOf offset) = some start) {i : Nat}
    (hle : start ≤ i) (hlt : i < offset) : (Text.bytes text)[i]? ≠ some newlineByte := by
  intro hnewline
  -- Behind a newline there another line would start, which is still not behind the offset.
  have hmem : i + 1 ∈ (ofText text).starts := mem_starts_iff.2 (.inr ⟨i, hnewline, rfl⟩)
  obtain ⟨line, hline⟩ := List.mem_iff_getElem?.1 hmem
  have habove : line ≤ (ofText text).lineOf offset := (le_iff_le_lineOf hline offset).1 hlt
  have hbelow : (ofText text).lineOf offset ≤ (ofText text).lineOf start :=
    (le_iff_le_lineOf hstart start).1 (Nat.le_refl _)
  have : i + 1 ≤ start := (le_iff_le_lineOf hline start).2 (Nat.le_trans habove hbelow)
  omega

/-- Where a line starts, no byte stands behind the last newline yet. -/
theorem rtakeWhile_take_of_mem_starts (h : start ∈ (ofText text).starts) :
    ((Text.bytes text).take start).rtakeWhile (· != newlineByte) = [] := by
  rcases mem_starts_iff.1 h with rfl | ⟨i, hi, rfl⟩
  · rfl
  · rw [List.take_add_one, hi]
    exact List.rtakeWhile_concat_neg _ _ _ (by simp)

/-- Behind the last newline in front of an offset stand the bytes between the start of its line
and the offset. -/
theorem length_rtakeWhile_take (hoffset : offset ≤ Text.byteLength text)
    (hstart : (ofText text).lineStart? ((ofText text).lineOf offset) = some start) :
    (((Text.bytes text).take offset).rtakeWhile (· != newlineByte)).length = offset - start := by
  have hle : start ≤ offset := (le_iff_le_lineOf hstart offset).2 (Nat.le_refl _)
  have hsplit : (Text.bytes text).take offset =
      (Text.bytes text).take start ++ ((Text.bytes text).take offset).drop start := by
    conv_lhs => rw [← List.take_append_drop start ((Text.bytes text).take offset)]
    rw [List.take_take, Nat.min_eq_left hle]
  have hline : ∀ b ∈ (((Text.bytes text).take offset).drop start).reverse,
      (b != newlineByte) = true := by
    intro b hb
    obtain ⟨i, hi⟩ := List.mem_iff_getElem?.1 (List.mem_reverse.1 hb)
    rw [List.getElem?_drop, List.getElem?_take] at hi
    split at hi
    · next hlt =>
      rw [bne_iff_ne]
      rintro rfl
      exact ne_newlineByte_of_le hstart (Nat.le_add_right start i) hlt hi
    · cases hi
  have hfront := rtakeWhile_take_of_mem_starts (List.mem_of_getElem? hstart)
  rw [List.rtakeWhile, List.reverse_eq_nil_iff] at hfront
  rw [hsplit, List.rtakeWhile, List.reverse_append, List.takeWhile_append_of_pos hline, hfront,
    List.append_nil, List.length_reverse, List.length_reverse, List.length_drop, List.length_take,
    Text.length_bytes]
  omega

/-! ### Positions that have an offset -/

/-- The end of a line lies in the text. -/
theorem lineEnd_le (text : String) (line : Nat) :
    (ofText text).lineEnd line ≤ Text.byteLength text := by
  unfold lineEnd
  split
  · next next hnext =>
    have := le_byteLength_of_mem_starts (List.mem_of_getElem? hnext)
    omega
  · exact Nat.le_refl _

theorem offset?_eq_some_iff {index : LineIndex} {p : Position} :
    index.offset? p = some offset ↔
      ∃ start, index.lineStart? p.line = some start ∧ start + p.character = offset ∧
        offset ≤ index.lineEnd p.line := by
  simp only [offset?, Option.bind_eq_bind, Option.bind_eq_some_iff, Option.ite_none_right_eq_some]
  grind

/-- An offset between the start and the end of a line lies on that line. -/
theorem lineOf_eq {line : Nat} (hstart : (ofText text).lineStart? line = some start)
    (hle : start ≤ offset) (hend : offset ≤ (ofText text).lineEnd line) :
    (ofText text).lineOf offset = line := by
  have habove : line ≤ (ofText text).lineOf offset := (le_iff_le_lineOf hstart offset).1 hle
  obtain ⟨last, hlast, -⟩ := lineStart?_lineOf text offset
  obtain ⟨hlt, -⟩ := List.getElem?_eq_some_iff.1 hlast
  -- If the offset lay further down, the next line would start at or before it.
  by_contra hne
  have hnext : (ofText text).lineStart? (line + 1) = some _ :=
    List.getElem?_eq_getElem (by omega)
  have hbefore := (le_iff_le_lineOf hnext offset).2 (by omega)
  have hpositive := le_of_lineStart?_eq_some hnext
  rw [lineEnd, hnext] at hend
  simp only at hend
  omega

/-- The offset of a position leads back to the position. -/
theorem position_of_offset? {p : Position} (hline : p.line ≤ maxCoordinate)
    (hcharacter : p.character ≤ maxCoordinate) (h : (ofText text).offset? p = some offset) :
    offset ≤ Text.byteLength text ∧ (ofText text).position offset = p := by
  obtain ⟨start, hstart, rfl, hend⟩ := offset?_eq_some_iff.1 h
  have hwithin := Nat.le_trans hend (lineEnd_le text p.line)
  have hlineOf := lineOf_eq hstart (Nat.le_add_right start p.character) hend
  have hmin : min (start + p.character) (ofText text).length = start + p.character :=
    Nat.min_eq_left hwithin
  refine ⟨hwithin, ?_⟩
  simp [position, lineColumn, hmin, hlineOf, hstart, Nat.min_eq_left hline,
    Nat.min_eq_left hcharacter]

/-- Positions come in the order of their offsets. -/
theorem position_before {offset' : Nat} (hlt : offset < offset')
    (hoffset' : offset' ≤ Text.byteLength text) (hlength : Text.byteLength text < 2 ^ 32) :
    ((ofText text).position offset).before ((ofText text).position offset') = true := by
  obtain ⟨start, hstart, hle, -⟩ := lineStart?_lineOf text offset
  obtain ⟨start', hstart', -⟩ := lineStart?_lineOf text offset'
  have hoffset : offset ≤ Text.byteLength text := by omega
  have hlines : (ofText text).lineOf offset ≤ (ofText text).lineOf offset' :=
    (le_iff_le_lineOf hstart offset').1 (by omega)
  rw [position_eq hoffset hlength hstart, position_eq hoffset' hlength hstart']
  rcases Nat.lt_or_eq_of_le hlines with hbelow | hsame
  · simp [Position.before, hbelow]
  · rw [hsame, hstart', Option.some.injEq] at hstart
    subst hstart
    simp only [Position.before, hsame, Nat.lt_irrefl, decide_false, beq_self_eq_true,
      Bool.true_and, Bool.false_or, decide_eq_true_eq]
    omega

/-! ### The lines themselves -/

/-- The line index of bytes that begin at `offset`. -/
def ofBytes (offset : Nat) (bs : List UInt8) : LineIndex :=
  ⟨offset :: startsInBytes offset bs, offset + bs.length⟩

theorem ofText_eq_ofBytes (text : String) : ofText text = ofBytes 0 (Text.bytes text) := by
  rw [ofBytes, ← starts_ofText, Text.length_bytes, Nat.zero_add]
  rfl

/-- The lines between newlines are those that the index knows, and each ends as many bytes behind
its start as it has. -/
theorem lineStart?_splitOn (offset : Nat) (bs : List UInt8) (i : Nat) :
    ((ofBytes offset bs).lineStart? i = none ∧ (bs.splitOn newlineByte)[i]? = none) ∨
      ∃ start line, (ofBytes offset bs).lineStart? i = some start ∧
        (bs.splitOn newlineByte)[i]? = some line ∧
        (ofBytes offset bs).lineEnd i = start + line.length := by
  induction bs generalizing offset i with
  | nil => cases i <;> simp [ofBytes, lineStart?, lineEnd, startsInBytes]
  | cons b bs ih =>
    rw [List.splitOn_cons_eq_if_modifyHead]
    have hlength : offset + (bs.length + 1) = offset + 1 + bs.length := by omega
    by_cases hb : b = newlineByte
    · -- The first line is empty, and the others are those behind the newline.
      have hindex : ofBytes offset (b :: bs) =
          ⟨offset :: (ofBytes (offset + 1) bs).starts, (ofBytes (offset + 1) bs).length⟩ := by
        simp [ofBytes, startsInBytes, hb, hlength]
      rw [hindex, if_pos (beq_iff_eq.2 hb)]
      cases i with
      | zero => exact .inr ⟨offset, [], by simp [lineStart?, lineEnd, ofBytes]⟩
      | succ i => simpa [lineStart?, lineEnd] using ih (offset + 1) i
    · -- The byte belongs to the first line, which starts one byte earlier and ends where it did.
      have hindex : ofBytes offset (b :: bs) =
          ⟨offset :: (ofBytes (offset + 1) bs).starts.tail,
            (ofBytes (offset + 1) bs).length⟩ := by
        simp [ofBytes, startsInBytes, hb, hlength]
      rw [hindex, if_neg (by simpa using hb)]
      cases i with
      | zero =>
        obtain ⟨hnone, -⟩ | ⟨start, line, hstart, hline, hend⟩ := ih (offset + 1) 0
        · cases hnone
        · obtain rfl : offset + 1 = start := Option.some.inj hstart
          have hgrown : offset + (b :: line).length = offset + 1 + line.length := by
            rw [List.length_cons]
            omega
          refine .inr ⟨offset, b :: line, rfl, by simp [hline], ?_⟩
          rw [hgrown, ← hend]
          rfl
      | succ i => simpa [lineStart?, lineEnd, ofBytes] using ih (offset + 1) (i + 1)

theorem isSome_offset?_iff {p : Position} :
    ((ofText text).offset? p).isSome = true ↔
      ∃ line, ((Text.bytes text).splitOn newlineByte)[p.line]? = some line ∧
        p.character ≤ line.length := by
  rw [Option.isSome_iff_exists, ofText_eq_ofBytes]
  simp only [offset?_eq_some_iff]
  rcases lineStart?_splitOn 0 (Text.bytes text) p.line with
    ⟨hnone, hline⟩ | ⟨start, line, hstart, hline, hend⟩
  · simp [hnone, hline]
  · simp [hstart, hline, hend]

/-! ### Both directions -/

/-- The index of a text knows the starts of its lines, which are the beginning of the text and the
places behind its newlines. In a text that is not too long for the coordinates of a position, every
offset has a position that leads back to it, made of the number of newlines in front of it and the
number of bytes since the last of them, and positions come in the order of their offsets. Where a
position whose coordinates are not too large has an offset, the offset has that position. The
positions that have an offset are those on a line of the text, up to its end. -/
theorem ofText_inverse (text : String) :
    ((ofText text).starts.Pairwise (· < ·) ∧ (ofText text).starts.head? = some 0 ∧
      ∀ start, start ∈ (ofText text).starts ↔
        start = 0 ∨ ∃ i, (Text.bytes text)[i]? = some newlineByte ∧ start = i + 1) ∧
    (Text.byteLength text < 2 ^ 32 → ∀ offset ≤ Text.byteLength text,
      (ofText text).offset? ((ofText text).position offset) = some offset ∧
      ((ofText text).position offset).line =
        ((Text.bytes text).take offset).count newlineByte ∧
      ((ofText text).position offset).character =
        (((Text.bytes text).take offset).rtakeWhile (· != newlineByte)).length) ∧
    (∀ p offset, p.line ≤ maxCoordinate → p.character ≤ maxCoordinate →
      (ofText text).offset? p = some offset →
        offset ≤ Text.byteLength text ∧ (ofText text).position offset = p) ∧
    (Text.byteLength text < 2 ^ 32 → ∀ offset offset', offset < offset' →
      offset' ≤ Text.byteLength text →
        ((ofText text).position offset).before ((ofText text).position offset') = true) ∧
    (∀ p, ((ofText text).offset? p).isSome = true ↔
      ∃ line, ((Text.bytes text).splitOn newlineByte)[p.line]? = some line ∧
        p.character ≤ line.length) := by
  refine ⟨⟨pairwise_starts text, rfl, fun start => mem_starts_iff⟩, ?_, ?_, ?_, ?_⟩
  · intro hlength offset hoffset
    obtain ⟨start, hstart, -⟩ := lineStart?_lineOf text offset
    refine ⟨offset?_position hoffset hlength, ?_, ?_⟩
    · rw [position_eq hoffset hlength hstart]
      exact lineOf_eq_count text offset
    · rw [position_eq hoffset hlength hstart]
      exact (length_rtakeWhile_take hoffset hstart).symm
  · intro p offset hline hcharacter h
    exact position_of_offset? hline hcharacter h
  · intro hlength offset offset' hlt hoffset'
    exact position_before hlt hoffset' hlength
  · intro p
    exact isSome_offset?_iff

/-- A text of three lines, the first with a character of two bytes and the second empty. -/
def threeLines : String := "aé\n\nb"

/-- The place behind the second newline, and the end of the first line. -/
theorem ofText_inverse_threeLines :
    Text.byteLength threeLines < 2 ^ 32 ∧
      (ofText threeLines).position 5 = ⟨2, 0⟩ ∧
      (ofText threeLines).offset? ⟨2, 0⟩ = some 5 ∧
      (ofText threeLines).position 3 = ⟨0, 3⟩ ∧
      ((ofText threeLines).position 3).before ((ofText threeLines).position 5) = true := by
  have hlength : Text.byteLength threeLines < 2 ^ 32 := by decide
  obtain ⟨-, hposition, hoffset, hbefore, -⟩ := ofText_inverse threeLines
  obtain ⟨hback, hline, hcharacter⟩ := hposition hlength 5 (by decide)
  have hfive : (ofText threeLines).position 5 = ⟨2, 0⟩ := by
    have hcount : ((Text.bytes threeLines).take 5).count newlineByte = 2 := by decide +kernel
    have hcolumn : (((Text.bytes threeLines).take 5).rtakeWhile (· != newlineByte)).length = 0 := by
      decide +kernel
    rw [hcount] at hline
    rw [hcolumn] at hcharacter
    cases hp : (ofText threeLines).position 5
    simp_all
  rw [hfive] at hback
  exact ⟨hlength, hfive, hback,
    (hoffset ⟨0, 3⟩ 3 (by decide) (by decide) (by decide)).2, hbefore hlength 3 5 (by decide)
      (by decide)⟩

end SqlMapper.LineIndex

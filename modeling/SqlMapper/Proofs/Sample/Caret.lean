import SqlMapper.Proofs.Chars.Cut
import SqlMapper.Proofs.Chars.Join
import SqlMapper.Proofs.Chars.Pieces
import SqlMapper.Proofs.LineBytes
import SqlMapper.Sample.Caret

/-!
# The place of a marker

The place of a marker is computed from the text in front of it, by counting newlines and looking
back to the last one. The line index of the text without the marker says the same place, although
it has been built from a text in which the marker is gone and which may hold another one by then.

## Main definitions

* `Text.insertAt?`: a text with another one put in.

## Main statements

* `Chars.count_flatMap_utf8EncodeChar`, `Chars.rtakeWhile_flatMap_utf8EncodeChar`: newlines among
  characters and among bytes.
* `LineIndex.position_byteLength`: the position of a place, by the text in front of it.
* `Sample.splitOn_marker_eq_iff`: a text that is cut once has one marker.
* `Sample.extractCaret_exact`: when there is a caret, and where it is.
-/

namespace SqlMapper

/-! ### Newlines in front of a place -/

namespace Chars

theorem count_flatMap_utf8EncodeChar (cs : List Char) :
    (cs.flatMap String.utf8EncodeChar).count newlineByte = cs.count '\n' := by
  induction cs with
  | nil => rfl
  | cons c cs ih =>
    rw [List.flatMap_cons, List.count_append, ih]
    by_cases hc : c = '\n'
    · subst hc
      rw [List.count_cons_self, Nat.add_comm]
      rfl
    · rw [List.count_eq_zero.2 (mt newlineByte_mem_utf8EncodeChar.1 hc),
        List.count_cons_of_ne (by simpa using hc), Nat.zero_add]

theorem rtakeWhile_append_of_pos {α : Type} {p : α → Bool} (l : List α) {more : List α}
    (h : ∀ x ∈ more, p x = true) : (l ++ more).rtakeWhile p = l.rtakeWhile p ++ more := by
  rw [List.rtakeWhile, List.reverse_append, List.takeWhile_append_of_pos (by simpa using h),
    List.reverse_append, List.reverse_reverse, List.rtakeWhile]

/-- Behind the last newline stand the bytes of the characters behind the last newline. -/
theorem rtakeWhile_flatMap_utf8EncodeChar (cs : List Char) :
    (cs.flatMap String.utf8EncodeChar).rtakeWhile (· != newlineByte) =
      (afterLast (· == '\n') cs).flatMap String.utf8EncodeChar := by
  induction cs using List.reverseRecOn with
  | nil => rfl
  | append_singleton cs c ih =>
    rw [List.flatMap_append, List.flatMap_singleton]
    by_cases hc : c = '\n'
    · subst hc
      rw [afterLast_concat _ cs rfl]
      exact List.rtakeWhile_concat_neg _ _ _ (by decide)
    · have hbytes : ∀ b ∈ String.utf8EncodeChar c, (b != newlineByte) = true := by
        intro b hb
        rw [bne_iff_ne]
        rintro rfl
        exact hc (newlineByte_mem_utf8EncodeChar.1 hb)
      rw [rtakeWhile_append_of_pos _ hbytes, ih,
        afterLast_append_of_not_mem cs (by simpa using Ne.symm hc), List.flatMap_append,
        List.flatMap_singleton]

end Chars

/-- The position behind the first part of a text, by that part alone. -/
theorem LineIndex.position_byteLength {before after : String}
    (hlength : Text.byteLength (before ++ after) < 2 ^ 32) :
    (ofText (before ++ after)).position (Text.byteLength before) =
      Sample.positionAfter before.toList := by
  have hbytes : (Text.bytes (before ++ after)).take (Text.byteLength before) =
      before.toList.flatMap String.utf8EncodeChar := by
    rw [Text.bytes_eq_flatMap, String.toList_append, List.flatMap_append, Text.byteLength,
      ← Chars.length_flatMap_utf8EncodeChar, List.take_left]
  have hoffset : Text.byteLength before ≤ Text.byteLength (before ++ after) := by
    simp [Text.byteLength]
  obtain ⟨start, hstart, hle, -⟩ := lineStart?_lineOf (before ++ after) (Text.byteLength before)
  have hline := le_of_lineStart?_eq_some hstart
  have hcolumn := length_rtakeWhile_take hoffset hstart
  rw [position_eq hoffset hlength hstart]
  rw [lineOf_eq_count, hbytes, Chars.count_flatMap_utf8EncodeChar] at hline ⊢
  rw [hbytes, Chars.rtakeWhile_flatMap_utf8EncodeChar, Chars.length_flatMap_utf8EncodeChar]
    at hcolumn
  simp only [Sample.positionAfter, maxCoordinate, Position.mk.injEq]
  omega

/-! ### The only marker -/

/-- No separator begins in front of the first one. -/
theorem Chars.length_le_of_not_infix {sep before after front back : List Char}
    (hfirst : ¬sep <:+: before ++ sep.dropLast)
    (h : front ++ sep ++ back = before ++ sep ++ after) : before.length ≤ front.length := by
  by_contra hlt
  have hfront : front ++ sep <+: before ++ sep ++ after := ⟨back, h⟩
  have hbefore : before ++ sep.dropLast <+: before ++ sep ++ after := by
    rw [List.append_assoc]
    refine (List.prefix_append_right_inj before).2 ?_
    exact (List.dropLast_prefix sep).trans (List.prefix_append sep after)
  have hlength : (front ++ sep).length ≤ (before ++ sep.dropLast).length := by
    rw [List.length_append, List.length_append, List.length_dropLast]
    omega
  have hwithin := List.prefix_of_prefix_length_le hfront hbefore hlength
  exact hfirst ((List.suffix_append front sep).isInfix.trans hwithin.isInfix)

namespace Sample

theorem toList_marker : marker.toList = ['$', '0'] :=
  rfl

/-- A text is cut into two parts exactly if the marker between them is its only one. -/
theorem splitOn_marker_eq_iff {text before after : List Char} :
    Chars.splitOn marker.toList text = [before, after] ↔
      before ++ marker.toList ++ after = text ∧
        ∀ front back, front ++ marker.toList ++ back = text → front = before ∧ back = after := by
  have hne : marker.toList ≠ [] := by decide
  constructor
  · intro h
    have hjoined := Chars.intercalate_splitOn hne text
    have hmem : before ∈ (Chars.splitOn marker.toList text).dropLast := by simp [h]
    have hmem' : after ∈ Chars.splitOn marker.toList text := by simp [h]
    have hbefore := Chars.not_infix_of_mem_dropLast_splitOn hne hmem
    have hafter := Chars.not_infix_of_mem_splitOn hne hmem'
    rw [h, List.intercalate_cons_cons, List.intercalate_singleton] at hjoined
    refine ⟨hjoined, fun front back hmarked => ?_⟩
    rw [← hjoined] at hmarked
    have hle := Chars.length_le_of_not_infix hbefore hmarked
    rw [List.append_assoc, List.append_assoc] at hmarked
    obtain ⟨rest, rfl⟩ := List.prefix_of_prefix_length_le ⟨_, hmarked.symm⟩
      (List.prefix_append front _) hle
    rw [List.append_assoc, List.append_cancel_left_eq] at hmarked
    rw [toList_marker] at hmarked hafter
    -- A marker cannot begin inside the first one, and behind it there is none.
    match rest with
    | [] => simpa using hmarked
    | [c] => simp at hmarked
    | c :: d :: rest =>
      obtain ⟨-, -, hrest⟩ : c = '$' ∧ d = '0' ∧ rest ++ '$' :: '0' :: back = after := by
        simpa using hmarked
      exact absurd ⟨rest, back, by simpa using hrest⟩ hafter
  · rintro ⟨rfl, honly⟩
    have hbefore : ¬marker.toList <:+: before ++ marker.toList.dropLast := by
      rintro ⟨front, back, hinfix⟩
      have hmarked : front ++ marker.toList ++ (back ++ '0' :: after) =
          before ++ marker.toList ++ after := by
        rw [← List.append_assoc, hinfix]
        simp [toList_marker]
      obtain rfl := (honly _ _ hmarked).1
      simp [toList_marker] at hinfix
    have hafter : ¬marker.toList <:+: after := by
      rintro ⟨front, back, rfl⟩
      have hfront := (honly (before ++ marker.toList ++ front) back (by simp)).1
      simp [toList_marker] at hfront
    have hcut : Chars.splitOn marker.toList (marker.toList.intercalate ([before] ++ [after])) =
        [before] ++ [after] :=
      Chars.splitOn_intercalate hne (by simpa using hbefore) hafter
    rwa [List.singleton_append, List.intercalate_cons_cons, List.intercalate_singleton] at hcut

theorem splitOn_eq_pair_iff {input before after : String} :
    Text.splitOn marker input = [before, after] ↔
      before ++ marker ++ after = input ∧
        ∀ front back, front ++ marker ++ back = input → front = before ∧ back = after := by
  have hchars : Text.splitOn marker input = [before, after] ↔
      Chars.splitOn marker.toList input.toList = [before.toList, after.toList] := by
    rw [Text.splitOn]
    constructor
    · intro h
      simpa [Function.comp_def] using congrArg (List.map String.toList) h
    · intro h
      simp [h]
  rw [hchars, splitOn_marker_eq_iff]
  simp only [← String.toList_inj, String.toList_append]
  refine and_congr_right fun _ => ⟨fun h front back => h front.toList back.toList, ?_⟩
  intro h front back hmarked
  simpa using h (String.ofList front) (String.ofList back) (by simpa using hmarked)

theorem extractCaret_eq_ok_iff {input : String} {c : CaretText} :
    extractCaret input = .ok c ↔
      ∃ before after, Text.splitOn marker input = [before, after] ∧
        ⟨before ++ after, positionAfter before.toList, Text.byteLength before⟩ = c := by
  rw [extractCaret]
  split
  · next before after hcut => simp [hcut]
  · next hcut =>
    simp only [reduceCtorEq, false_iff]
    rintro ⟨before, after, h, -⟩
    exact hcut before after h

theorem exists_extractCaret_iff {input : String} :
    (∃ c, extractCaret input = .ok c) ↔
      ∃! parts : String × String, parts.1 ++ marker ++ parts.2 = input := by
  simp only [extractCaret_eq_ok_iff, splitOn_eq_pair_iff]
  constructor
  · rintro ⟨c, before, after, ⟨hmarked, honly⟩, -⟩
    refine ⟨(before, after), hmarked, fun parts hparts => ?_⟩
    obtain ⟨hfront, hback⟩ := honly parts.1 parts.2 hparts
    exact Prod.ext hfront hback
  · rintro ⟨⟨before, after⟩, hmarked, honly⟩
    refine ⟨_, before, after, ⟨hmarked, fun front back h => ?_⟩, rfl⟩
    exact Prod.mk.inj (honly (front, back) h)

end Sample

/-- The text with another one put in at an offset; `none` if the offset is not between two
characters. -/
def Text.insertAt? (text : String) (offset : Nat) (part : String) : Option String :=
  (Chars.splitAtByte? offset text.toList).map fun p =>
    String.ofList (p.1 ++ part.toList ++ p.2)

theorem Text.insertAt?_append (before after part : String) :
    insertAt? (before ++ after) (byteLength before) part = some (before ++ part ++ after) := by
  rw [insertAt?, byteLength, String.toList_append, Chars.splitAtByte?_append, Option.map_some,
    Option.some.injEq, ← String.toList_inj]
  simp

namespace Sample

/-- There is a caret exactly if the text has one marker. If the text is not too long for the
coordinates of a position, then the line index of the text without the marker has the position of
the caret for its offset and the offset for its position, the offset falls between characters, and
putting the marker in there gives back the text. -/
theorem extractCaret_exact (input : String) :
    ((∃ c, extractCaret input = .ok c) ↔
      ∃! parts : String × String, parts.1 ++ marker ++ parts.2 = input) ∧
    ∀ c, extractCaret input = .ok c → Text.byteLength input < 2 ^ 32 →
      (LineIndex.ofText c.source).position c.offset = c.position ∧
      (LineIndex.ofText c.source).offset? c.position = some c.offset ∧
      Chars.IsBoundary c.source.toList c.offset ∧
      Text.insertAt? c.source c.offset marker = some input := by
  refine ⟨exists_extractCaret_iff, fun c hc hlength => ?_⟩
  obtain ⟨before, after, hcut, rfl⟩ := extractCaret_eq_ok_iff.1 hc
  obtain ⟨rfl, -⟩ := splitOn_eq_pair_iff.1 hcut
  have hsource : Text.byteLength (before ++ after) < 2 ^ 32 := by
    simp only [Text.byteLength, String.toList_append, Chars.byteLength_append] at hlength ⊢
    omega
  have hoffset : Text.byteLength before ≤ Text.byteLength (before ++ after) := by
    simp [Text.byteLength]
  have hposition := LineIndex.position_byteLength hsource
  refine ⟨hposition, ?_, ?_, Text.insertAt?_append before after marker⟩
  · rw [← hposition]
    exact LineIndex.offset?_position hoffset hsource
  · rw [Chars.isBoundary_iff, Text.byteLength, String.toList_append, Chars.splitAtByte?_append]
    rfl

/-- Taking the marker out of `$$00` on the second line leaves a text with another marker. -/
theorem extractCaret_exact_reborn :
    (∃! parts : String × String, parts.1 ++ marker ++ parts.2 = "é\n$$00") ∧
      extractCaret "é\n$$00" = .ok ⟨"é\n$0", ⟨1, 1⟩, 4⟩ ∧
      (LineIndex.ofText "é\n$0").position 4 = ⟨1, 1⟩ ∧
      (LineIndex.ofText "é\n$0").offset? ⟨1, 1⟩ = some 4 ∧
      Chars.IsBoundary "é\n$0".toList 4 ∧
      Text.insertAt? "é\n$0" 4 marker = some "é\n$$00" := by
  have hcaret : extractCaret "é\n$$00" = .ok ⟨"é\n$0", ⟨1, 1⟩, 4⟩ := by decide +kernel
  have hlength : Text.byteLength "é\n$$00" < 2 ^ 32 := by decide
  obtain ⟨hone, hplaced⟩ := extractCaret_exact "é\n$$00"
  exact ⟨hone.1 ⟨_, hcaret⟩, hcaret, hplaced _ hcaret hlength⟩

end Sample

end SqlMapper

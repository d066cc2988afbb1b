import SqlMapper.Text

/-!
# Cutting what was joined

Pieces that are joined by a separator come back when the text is cut at it, provided that no
separator begins in a piece: neither in the piece itself nor where it meets the separator behind it.

## Main statements

* `Chars.piecesAfter_append`: a piece in front of a separator is cut off as it stands.
* `Chars.splitOn_intercalate`: cutting what was joined.
* `Text.prefix_join`, `Text.getLast?_join`: the ends of what was joined.
* `Text.splitOn_join`: joining and cutting.
-/

namespace SqlMapper

namespace Chars

variable {sep : List Char}

/-- The characters that belong to a separator are skipped. -/
theorem piecesAfter_length_append (front rest : List Char) :
    piecesAfter sep front.length (front ++ rest) = piecesAfter sep 0 rest := by
  induction front with
  | nil => rfl
  | cons c front ih =>
    rw [List.length_cons, List.cons_append, piecesAfter]
    exact ih

/-- A text in which no separator occurs is one piece. -/
theorem piecesAfter_eq_singleton {piece : List Char} (h : ¬sep <:+: piece) :
    piecesAfter sep 0 piece = [piece] := by
  induction piece with
  | nil => rfl
  | cons c piece ih =>
    have hhere : sep.isPrefixOf (c :: piece) = false := by
      rw [Bool.eq_false_iff, ne_eq, List.isPrefixOf_iff_prefix]
      exact fun hstart => h hstart.isInfix
    have hrest : ¬sep <:+: piece :=
      fun hoccurs => h (hoccurs.trans (List.suffix_cons c piece).isInfix)
    simp [piecesAfter, hhere, ih hrest, consPiece]

/-- A piece in which no separator begins is cut off at the separator behind it. -/
theorem piecesAfter_append (hsep : sep ≠ []) {piece : List Char}
    (h : ¬sep <:+: piece ++ sep.dropLast) (rest : List Char) :
    piecesAfter sep 0 (piece ++ (sep ++ rest)) = piece :: piecesAfter sep 0 rest := by
  induction piece with
  | nil =>
    obtain ⟨c, tail, rfl⟩ := List.exists_cons_of_ne_nil hsep
    have hhere : (c :: tail).isPrefixOf (c :: (tail ++ rest)) = true := by
      rw [List.isPrefixOf_iff_prefix]
      exact List.prefix_append (c :: tail) rest
    rw [List.nil_append, List.cons_append, piecesAfter, if_pos hhere, List.length_cons,
      Nat.add_sub_cancel, piecesAfter_length_append]
  | cons c piece ih =>
    -- A separator here would have to end before the one behind the piece does.
    have hhere : sep.isPrefixOf (c :: (piece ++ (sep ++ rest))) = false := by
      rw [Bool.eq_false_iff, ne_eq, List.isPrefixOf_iff_prefix]
      intro hstart
      have hfront : c :: piece ++ sep.dropLast <+: c :: (piece ++ (sep ++ rest)) := by
        refine (List.prefix_append_right_inj (c :: piece)).2 ?_
        exact (List.dropLast_prefix sep).trans (List.prefix_append sep rest)
      have hlength : sep.length ≤ (c :: piece ++ sep.dropLast).length := by
        simp
        omega
      exact h (List.prefix_of_prefix_length_le hstart hfront hlength).isInfix
    have hrest : ¬sep <:+: piece ++ sep.dropLast :=
      fun hoccurs => h (hoccurs.trans (List.suffix_cons c _).isInfix)
    simp [piecesAfter, hhere, ih hrest, consPiece]

theorem splitOn_intercalate (hsep : sep ≠ []) {front : List (List Char)} {last : List Char}
    (hfront : ∀ piece ∈ front, ¬sep <:+: piece ++ sep.dropLast) (hlast : ¬sep <:+: last) :
    splitOn sep (sep.intercalate (front ++ [last])) = front ++ [last] := by
  rw [splitOn, if_neg (by simpa using hsep)]
  induction front with
  | nil => rw [List.nil_append, List.intercalate_singleton, piecesAfter_eq_singleton hlast]
  | cons piece front ih =>
    obtain ⟨hpiece, hrest⟩ := List.forall_mem_cons.1 hfront
    rw [List.cons_append, List.intercalate_cons_of_ne_nil (by simp), List.append_assoc,
      piecesAfter_append hsep hpiece, ih hrest]

/-- A separator whose last character does not occur behind a text lies in the text. -/
theorem infix_of_infix_append (hsep : sep ≠ []) {text more : List Char}
    (hmore : sep.getLast hsep ∉ more) (h : sep <:+: text ++ more) : sep <:+: text := by
  obtain ⟨front, back, hsplit⟩ := h
  have hstart : front ++ sep <+: text ++ more := ⟨back, hsplit⟩
  by_cases hlength : (front ++ sep).length ≤ text.length
  · have hwithin := List.prefix_of_prefix_length_le hstart (List.prefix_append text more) hlength
    exact ⟨front, _, (List.prefix_iff_eq_append.1 hwithin)⟩
  · -- Otherwise the separator ends behind the text, and so does its last character.
    obtain ⟨beyond, hbeyond⟩ :=
      List.prefix_of_prefix_length_le (List.prefix_append text more) hstart (by omega)
    have hne : beyond ≠ [] := by
      rintro rfl
      rw [List.append_nil] at hbeyond
      rw [hbeyond] at hlength
      exact hlength (Nat.le_refl _)
    have hlast : sep.getLast hsep ∈ beyond := by
      have hends := congrArg List.getLast? hbeyond
      rw [List.getLast?_append, List.getLast?_append, List.getLast?_eq_some_getLast hne,
        List.getLast?_eq_some_getLast hsep, Option.some_or, Option.some_or,
        Option.some.injEq] at hends
      rw [← hends]
      exact List.getLast_mem hne
    rw [← hbeyond, List.prefix_append_right_inj] at hstart
    exact absurd (hstart.subset hlast) hmore

end Chars

namespace Text

variable {sep : String}

theorem toList_join_cons_cons (p q : String) (ps : List String) :
    (join sep (p :: q :: ps)).toList =
      p.toList ++ (sep.toList ++ (join sep (q :: ps)).toList) := by
  simp [join]

theorem toList_join (sep : String) (pieces : List String) :
    (join sep pieces).toList = sep.toList.intercalate (pieces.map String.toList) := by
  fun_induction join sep pieces with
  | case1 => simp
  | case2 p => simp
  | case3 p q ps ih => simp [ih]

/-- Joined pieces begin with the first one. -/
theorem prefix_join (sep p : String) (ps : List String) :
    p.toList <+: (join sep (p :: ps)).toList := by
  cases ps with
  | nil => exact List.prefix_rfl
  | cons q qs =>
    rw [toList_join_cons_cons]
    exact List.prefix_append _ _

/-- Joined pieces that all end with the same character end with it. -/
theorem getLast?_join {c : Char} {pieces : List String} (hne : pieces ≠ [])
    (h : ∀ p ∈ pieces, p.toList.getLast? = some c) :
    (join sep pieces).toList.getLast? = some c := by
  induction pieces with
  | nil => exact absurd rfl hne
  | cons p ps ih =>
    cases ps with
    | nil => exact h p List.mem_cons_self
    | cons q qs =>
      have hrest := ih (List.cons_ne_nil q qs) fun x hx => h x (List.mem_cons_of_mem p hx)
      rw [toList_join_cons_cons, List.getLast?_append, List.getLast?_append, hrest,
        Option.some_or, Option.some_or]

/-- Joined pieces come back when the text is cut, if no separator begins in a piece. -/
theorem splitOn_join (hsep : sep ≠ "") {pieces : List String} (hne : pieces ≠ [])
    (h : ∀ p ∈ pieces, ¬sep.toList <:+: p.toList ++ sep.toList.dropLast) :
    splitOn sep (join sep pieces) = pieces := by
  have hchars : sep.toList ≠ [] := by simpa using hsep
  obtain ⟨front, last, rfl⟩ := pieces.eq_nil_or_concat.resolve_left hne
  rw [List.concat_eq_append] at h ⊢
  have hlast : ¬sep.toList <:+: last.toList := fun hoccurs =>
    h last (by simp) (hoccurs.trans (List.prefix_append _ _).isInfix)
  have hfront : ∀ p ∈ front.map String.toList, ¬sep.toList <:+: p ++ sep.toList.dropLast := by
    intro p hp
    obtain ⟨q, hq, rfl⟩ := List.mem_map.1 hp
    exact h q (List.mem_append_left _ hq)
  rw [splitOn, toList_join, List.map_append, List.map_singleton,
    Chars.splitOn_intercalate hchars hfront hlast]
  simp [Function.comp_def]

end Text

end SqlMapper

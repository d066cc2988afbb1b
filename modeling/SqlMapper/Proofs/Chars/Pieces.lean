import Mathlib.Data.List.Infix
import SqlMapper.Chars.Cut

/-!
# Pieces and the text they come from

Cutting a text at a separator loses nothing but the separators, whatever characters a separator has
and however it may overlap with itself. Each piece is therefore found again in the text: the first
one at its start, the last one at its end, and all others in between.

## Main statements

* `Chars.intercalate_splitOn`: the pieces, joined by the separator, are the text.
* `Chars.not_infix_of_mem_splitOn`: no piece has a separator in it.
* `Chars.not_infix_of_mem_dropLast_splitOn`: the separator behind a piece is the first one from
  the start of the piece on.
* `Chars.mem_inner_of_mem_splitOn`: pieces between others lie within the text.
* `Chars.occursIn_iff`: searching a text for another.
-/

namespace SqlMapper.Chars

variable {sep : List Char}

/-! ### Joined pieces -/

theorem infix_intercalate {pieces : List (List Char)} {piece : List Char} (h : piece ∈ pieces) :
    piece <:+: sep.intercalate pieces := by
  induction pieces with
  | nil => simp at h
  | cons first pieces ih =>
    cases pieces with
    | nil =>
      obtain rfl : piece = first := by simpa using h
      exact List.intercalate_singleton ▸ List.infix_rfl
    | cons next pieces =>
      rw [List.intercalate_cons_cons]
      rcases List.mem_cons.1 h with rfl | hrest
      · rw [List.append_assoc]
        exact (List.prefix_append piece _).isInfix
      · exact (ih hrest).trans (List.suffix_append _ _).isInfix

theorem mem_dropLast_append {text : List Char} (front : List Char) {c : Char}
    (h : c ∈ text.dropLast) : c ∈ (front ++ text).dropLast := by
  have hne : text ≠ [] := by
    rintro rfl
    simp at h
  rw [List.dropLast_append_of_ne_nil hne]
  exact List.mem_append_right front h

/-- Behind a piece other than the last one stands a separator. -/
theorem infix_append_of_mem_dropLast {pieces : List (List Char)} {piece : List Char}
    (h : piece ∈ pieces.dropLast) : piece ++ sep <:+: sep.intercalate pieces := by
  induction pieces with
  | nil => simp at h
  | cons first pieces ih =>
    cases pieces with
    | nil => simp at h
    | cons next pieces =>
      rw [List.intercalate_cons_cons]
      rw [List.dropLast_cons_cons, List.mem_cons] at h
      rcases h with rfl | hrest
      · exact (List.prefix_append _ _).isInfix
      · exact (ih hrest).trans (List.suffix_append _ _).isInfix

theorem mem_dropLast_intercalate (hsep : sep ≠ []) {pieces : List (List Char)} {piece : List Char}
    (h : piece ∈ pieces.dropLast) {c : Char} (hc : c ∈ piece) :
    c ∈ (sep.intercalate pieces).dropLast := by
  have hoccurs : piece ++ sep <:+: sep.intercalate pieces := infix_append_of_mem_dropLast h
  obtain ⟨front, back, hjoined⟩ := hoccurs
  have hne : sep ++ back ≠ [] := List.append_ne_nil_of_left_ne_nil hsep back
  rw [← hjoined, List.append_assoc, List.append_assoc, ← List.append_assoc,
    List.dropLast_append_of_ne_nil hne]
  simp [hc]

/-- Around a piece between others stand separators. -/
theorem mem_inner_intercalate (hsep : sep ≠ []) {pieces : List (List Char)} {piece : List Char}
    (h : piece ∈ pieces.tail.dropLast) {c : Char} (hc : c ∈ piece) :
    c ∈ (sep.intercalate pieces).tail.dropLast := by
  cases pieces with
  | nil => simp at h
  | cons first pieces =>
    cases pieces with
    | nil => simp at h
    | cons next pieces =>
      rw [List.intercalate_cons_cons,
        List.tail_append_of_ne_nil (List.append_ne_nil_of_right_ne_nil first hsep)]
      exact mem_dropLast_append _ (mem_dropLast_intercalate hsep h hc)

/-! ### Pieces of a text -/

theorem piecesAfter_ne_nil (sep : List Char) (skip : Nat) (text : List Char) :
    piecesAfter sep skip text ≠ [] := by
  fun_induction piecesAfter sep skip text with
  | case1 => simp
  | case2 _ _ _ ih => exact ih
  | case3 => simp
  | case4 c text _ ih =>
    obtain ⟨piece, pieces, hpieces⟩ := List.exists_cons_of_ne_nil ih
    simp [hpieces, consPiece]

theorem intercalate_consPiece (c : Char) {pieces : List (List Char)} (h : pieces ≠ []) :
    sep.intercalate (consPiece c pieces) = c :: sep.intercalate pieces := by
  obtain ⟨piece, pieces, rfl⟩ := List.exists_cons_of_ne_nil h
  cases pieces with
  | nil => simp [consPiece]
  | cons next pieces => simp [consPiece]

theorem intercalate_piecesAfter (hsep : sep ≠ []) (skip : Nat) (text : List Char) :
    sep.intercalate (piecesAfter sep skip text) = text.drop skip := by
  fun_induction piecesAfter sep skip text with
  | case1 => simp
  | case2 skip c text ih => exact ih
  | case3 c text hstart ih =>
    -- The separator that is found here is the one that the skipped characters belong to.
    obtain ⟨rest, hrest⟩ := List.isPrefixOf_iff_prefix.1 hstart
    obtain ⟨d, sep, rfl⟩ := List.exists_cons_of_ne_nil hsep
    obtain ⟨rfl, rfl⟩ : d = c ∧ sep ++ rest = text := by simpa using hrest
    rw [List.intercalate_cons_of_ne_nil (piecesAfter_ne_nil _ _ _), ih]
    simp
  | case4 c text _ ih =>
    rw [intercalate_consPiece c (piecesAfter_ne_nil _ _ _), ih]
    rfl

theorem not_infix_of_mem_piecesAfter (hsep : sep ≠ []) {skip : Nat} {text piece : List Char}
    (h : piece ∈ piecesAfter sep skip text) : ¬ sep <:+: piece := by
  fun_induction piecesAfter sep skip text generalizing piece with
  | case1 =>
    obtain rfl : piece = [] := by simpa using h
    simpa using hsep
  | case2 _ _ _ ih => exact ih h
  | case3 c text _ ih =>
    rcases List.mem_cons.1 h with rfl | hrest
    · simpa using hsep
    · exact ih hrest
  | case4 c text hstart ih =>
    have hjoined := intercalate_piecesAfter hsep 0 text
    obtain ⟨first, pieces, hpieces⟩ :=
      List.exists_cons_of_ne_nil (piecesAfter_ne_nil sep 0 text)
    rw [hpieces] at h ih hjoined
    rcases List.mem_cons.1 h with rfl | hrest
    · -- The first piece begins the text, where no separator stands.
      have hfirst : first <+: text := by
        rw [List.drop_zero] at hjoined
        rw [← hjoined]
        cases pieces with
        | nil => simp
        | cons next pieces => simp
      rw [List.infix_cons_iff]
      rintro (hhere | hlater)
      · have hhead : c :: first <+: c :: text := (List.prefix_cons_inj c).2 hfirst
        exact hstart (List.isPrefixOf_iff_prefix.2 (hhere.trans hhead))
      · exact ih List.mem_cons_self hlater
    · exact ih (List.mem_cons_of_mem first hrest)

/-- The separator behind a piece is the first one from the start of the piece on. -/
theorem not_infix_of_mem_dropLast_piecesAfter (hsep : sep ≠ []) {skip : Nat}
    {text piece : List Char} (h : piece ∈ (piecesAfter sep skip text).dropLast) :
    ¬ sep <:+: piece ++ sep.dropLast := by
  fun_induction piecesAfter sep skip text generalizing piece with
  | case1 => simp at h
  | case2 _ _ _ ih => exact ih h
  | case3 c text _ ih =>
    rw [List.dropLast_cons_of_ne_nil (piecesAfter_ne_nil _ _ _), List.mem_cons] at h
    rcases h with rfl | hrest
    · intro hoccurs
      have hlength := hoccurs.length_le
      have hpos := List.length_pos_iff.2 hsep
      rw [List.nil_append, List.length_dropLast] at hlength
      omega
    · exact ih hrest
  | case4 c text hstart ih =>
    have hjoined := intercalate_piecesAfter hsep 0 text
    obtain ⟨first, pieces, hpieces⟩ :=
      List.exists_cons_of_ne_nil (piecesAfter_ne_nil sep 0 text)
    rw [hpieces] at h ih hjoined
    cases pieces with
    | nil => simp [consPiece] at h
    | cons next pieces =>
      rw [consPiece, List.dropLast_cons_cons, List.mem_cons] at h
      rcases h with rfl | hrest
      · -- The first piece and the separator behind it begin the text, where none stands.
        have hfirst : first ++ sep.dropLast <+: text := by
          rw [List.drop_zero, List.intercalate_cons_cons, List.append_assoc] at hjoined
          rw [← hjoined]
          refine (List.prefix_append_right_inj first).2 ?_
          exact (List.dropLast_prefix sep).trans (List.prefix_append sep _)
        rw [List.cons_append, List.infix_cons_iff]
        rintro (hhere | hlater)
        · have hhead := hhere.trans ((List.prefix_cons_inj c).2 hfirst)
          exact hstart (List.isPrefixOf_iff_prefix.2 hhead)
        · exact ih (by simp) hlater
      · exact ih (by simp [hrest])

theorem splitOn_eq_piecesAfter (hsep : sep ≠ []) (text : List Char) :
    splitOn sep text = piecesAfter sep 0 text := by
  rw [splitOn, if_neg (by simpa using hsep)]

theorem intercalate_splitOn (hsep : sep ≠ []) (text : List Char) :
    sep.intercalate (splitOn sep text) = text := by
  rw [splitOn_eq_piecesAfter hsep, intercalate_piecesAfter hsep, List.drop_zero]

theorem not_infix_of_mem_splitOn (hsep : sep ≠ []) {text piece : List Char}
    (h : piece ∈ splitOn sep text) : ¬ sep <:+: piece := by
  rw [splitOn_eq_piecesAfter hsep] at h
  exact not_infix_of_mem_piecesAfter hsep h

theorem not_infix_of_mem_dropLast_splitOn (hsep : sep ≠ []) {text piece : List Char}
    (h : piece ∈ (splitOn sep text).dropLast) : ¬ sep <:+: piece ++ sep.dropLast := by
  rw [splitOn_eq_piecesAfter hsep] at h
  exact not_infix_of_mem_dropLast_piecesAfter hsep h

theorem infix_of_mem_splitOn (hsep : sep ≠ []) {text piece : List Char}
    (h : piece ∈ splitOn sep text) : piece <:+: text := by
  have hoccurs : piece <:+: sep.intercalate (splitOn sep text) := infix_intercalate h
  rwa [intercalate_splitOn hsep] at hoccurs

theorem mem_inner_of_mem_splitOn (hsep : sep ≠ []) {text piece : List Char}
    (h : piece ∈ (splitOn sep text).tail.dropLast) {c : Char} (hc : c ∈ piece) :
    c ∈ text.tail.dropLast := by
  have hinner := mem_inner_intercalate hsep h hc
  rwa [intercalate_splitOn hsep] at hinner

/-! ### Occurrences -/

theorem occursIn_iff {text : List Char} : occursIn sep text = true ↔ sep <:+: text := by
  unfold occursIn
  fun_induction breakAt? sep text with
  | case1 h => simpa using h
  | case2 h => simpa using h
  | case3 c text rest hstart =>
    have hstarts : sep <+: c :: text := ⟨rest, List.isPrefixOf?_eq_some_iff_append_eq.1 hstart⟩
    simp [hstarts.isInfix]
  | case4 c text hstart ih =>
    have hnot : ¬sep <+: c :: text := by
      rintro ⟨rest, hrest⟩
      rw [List.isPrefixOf?_eq_some_iff_append_eq.2 hrest] at hstart
      cases hstart
    rw [Option.isSome_map, ih, List.infix_cons_iff]
    simp [hnot]

end SqlMapper.Chars

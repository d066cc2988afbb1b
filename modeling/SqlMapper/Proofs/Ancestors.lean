import SqlMapper.Proofs.Path
import SqlMapper.Settings.Discovery

/-!
# Directories above a path

The directories above an absolute path, said by its text: each is the root or ends with a
significant piece, and in the path a slash and something significant follow it. Taking the last
name off a path again and again comes by all of them, the deepest first, before it ends at the
root.

## Main definitions

* `Path.IsAbove`, `Path.AtOrAbove`: the directories above a path, without and with the path itself.
* `Path.depth`: the number of significant names.

## Main statements

* `Path.parent?_cases`: the path without its last name is the deepest directory above it.
* `Settings.mem_ancestors`, `Settings.pairwise_depth_ancestors`: the list of all of them.
-/

namespace SqlMapper

namespace Path

/-- The directory is above the absolute path: it is the root or ends with a significant piece, and
behind the next slash of the path there is another significant one. -/
def IsAbove (above p : String) : Prop :=
  ∃ rest, (∃ piece ∈ pieces rest, significant piece = true) ∧
    (above = "/" ∧ p = "/" ++ rest ∨
      (∃ name, (pieces above).getLast? = some name ∧ significant name = true) ∧
        p = above ++ "/" ++ rest)

/-- The directory is the path itself or above it. -/
def AtOrAbove (directory p : String) : Prop :=
  directory = p ∨ IsAbove directory p

/-- How many names lead from the root to the path. -/
def depth (p : String) : Nat :=
  (names p).length

/-! ### Pieces without an insignificant end -/

/-- The pieces without those at the end that are not significant. -/
def settled (ps : List String) : List String :=
  ps.rdropWhile fun name => !significant name

theorem settled_append (front back : List String) :
    settled (front ++ back) = if settled back = [] then settled front else front ++ settled back := by
  unfold settled
  simp only [List.rdropWhile, List.reverse_append, List.dropWhile_append, List.isEmpty_iff,
    List.reverse_eq_nil_iff]
  split <;> simp

theorem settled_eq_nil_iff {ps : List String} :
    settled ps = [] ↔ ∀ piece ∈ ps, significant piece = false := by
  simp [settled, List.rdropWhile_eq_nil_iff]

theorem settled_ne_nil_iff {ps : List String} :
    settled ps ≠ [] ↔ ∃ piece ∈ ps, significant piece = true := by
  rw [ne_eq, settled_eq_nil_iff]
  simp

theorem settled_settled (ps : List String) : settled (settled ps) = settled ps :=
  List.rdropWhile_idempotent _ _

theorem exists_append_settled (ps : List String) : ∃ ending, ps = settled ps ++ ending :=
  ⟨_, (List.rdropWhile_append_rtakeWhile).symm⟩

theorem significant_of_settled {ps front : List String} {name : String}
    (h : settled ps = front ++ [name]) : significant name = true := by
  have hne : settled ps ≠ [] := by simp [h]
  have hlast : (settled ps).getLast hne = name := by simp [h]
  have hnot : ¬(!significant ((settled ps).getLast hne)) = true :=
    List.rdropWhile_last_not _ ps hne
  simpa [hlast] using hnot

theorem settled_of_significant {ps : List String} {name : String} (h : ps.getLast? = some name)
    (hname : significant name = true) : settled ps = ps := by
  obtain ⟨front, rfl⟩ := List.getLast?_eq_some_iff.1 h
  exact List.rdropWhile_concat_neg _ _ _ (by simp [hname])

/-- The pieces begin with those that are kept. These have a significant end, if any, and another
significant piece follows. -/
def Keeps (ps kept : List String) : Prop :=
  settled kept = kept ∧ ∃ back, ps = kept ++ back ∧ settled back ≠ []

theorem not_keeps {ps : List String} (h : settled ps = []) (kept : List String) :
    ¬Keeps ps kept := by
  rintro ⟨-, back, rfl, hback⟩
  rw [settled_append, if_neg hback] at h
  exact hback (List.append_eq_nil_iff.1 h).2

/-- What is kept is all in front of the last significant piece, or is kept of that. -/
theorem keeps_iff {ps front kept : List String} {name : String}
    (h : settled ps = front ++ [name]) :
    Keeps ps kept ↔ kept = settled front ∨ Keeps (settled front) kept := by
  constructor
  · rintro ⟨hkept, back, rfl, hback⟩
    obtain ⟨back', name', hsettled⟩ := (settled back).eq_nil_or_concat.resolve_left hback
    rw [settled_append, if_neg hback, hsettled, List.concat_eq_append, ← List.append_assoc] at h
    obtain ⟨rfl, -⟩ := List.append_inj' h rfl
    rw [settled_append]
    split
    · exact .inl hkept.symm
    · next hne => exact .inr ⟨hkept, settled back', rfl, by rwa [settled_settled]⟩
  · obtain ⟨ending, hps⟩ := exists_append_settled ps
    obtain ⟨skipped, hfront⟩ := exists_append_settled front
    have hname := significant_of_settled h
    rw [h] at hps
    rintro (rfl | ⟨hkept, back, hback, -⟩)
    · refine ⟨settled_settled front, skipped ++ name :: ending, ?_, ?_⟩
      · rw [← List.append_assoc, ← hfront, hps, List.append_assoc, List.singleton_append]
      · exact settled_ne_nil_iff.2 ⟨name, by simp, hname⟩
    · refine ⟨hkept, back ++ skipped ++ name :: ending, ?_, ?_⟩
      · rw [← List.append_assoc, ← List.append_assoc, ← hback, ← hfront, hps,
          List.append_assoc, List.singleton_append]
      · exact settled_ne_nil_iff.2 ⟨name, by simp, hname⟩

/-! ### Absolute paths of pieces -/

/-- The absolute path with these pieces. -/
def ofPieces (ps : List String) : String :=
  "/" ++ Text.join "/" ps

theorem isAbsolute_ofPieces (ps : List String) : isAbsolute (ofPieces ps) = true :=
  isAbsolute_iff_exists.2 ⟨_, rfl⟩

theorem join_cons_empty {ps : List String} (hne : ps ≠ []) :
    Text.join "/" ("" :: ps) = ofPieces ps := by
  obtain ⟨p, ps, rfl⟩ := List.exists_cons_of_ne_nil hne
  rw [← String.toList_inj, Text.toList_join_cons_cons, ofPieces]
  simp

theorem pieces_ofPieces {ps : List String} (hne : ps ≠ []) (h : ∀ piece ∈ ps, '/' ∉ piece.toList) :
    pieces (ofPieces ps) = "" :: ps := by
  rw [ofPieces, pieces_absolute, pieces_join hne h]

theorem names_absolute (rest : String) :
    names ("/" ++ rest) = (pieces rest).filter significant := by
  rw [names, pieces_absolute]
  simp

theorem names_ofPieces {ps : List String} (h : ∀ piece ∈ ps, '/' ∉ piece.toList) :
    names (ofPieces ps) = ps.filter significant := by
  by_cases hne : ps = []
  · subst hne
    decide
  · rw [ofPieces, names_absolute, pieces_join hne h]

/-- The directories above a path have the pieces that can be kept of it. -/
theorem isAbove_iff {above rest : String} :
    IsAbove above ("/" ++ rest) ↔ ∃ kept, Keeps (pieces rest) kept ∧ above = ofPieces kept := by
  constructor
  · rintro ⟨more, hmore, ⟨rfl, hp⟩ | ⟨⟨name, hlast, hname⟩, hp⟩⟩
    · obtain rfl : rest = more := (String.append_right_inj "/").1 hp
      exact ⟨[], ⟨rfl, pieces rest, rfl, settled_ne_nil_iff.2 hmore⟩, rfl⟩
    · have hpieces := congrArg pieces hp
      rw [pieces_absolute, pieces_append] at hpieces
      rcases List.cons_eq_append_iff.1 hpieces with ⟨hnil, -⟩ | ⟨kept, habove, hrest⟩
      · exact absurd hnil (pieces_ne_nil above)
      · -- The root alone does not end with a significant piece.
        have hne : kept ≠ [] := by
          rintro rfl
          rw [habove] at hlast
          obtain rfl : "" = name := by simpa using hlast
          exact absurd hname (by decide)
        have hkept : kept.getLast? = some name := by
          rw [habove, List.getLast?_cons_of_ne_nil hne] at hlast
          exact hlast
        refine ⟨kept, ⟨settled_of_significant hkept hname, pieces more, hrest,
          settled_ne_nil_iff.2 hmore⟩, ?_⟩
        rw [← join_cons_empty hne, ← habove, join_pieces]
  · rintro ⟨kept, ⟨hkept, back, hrest, hback⟩, rfl⟩
    have hplain : ∀ piece ∈ kept ++ back, '/' ∉ piece.toList := by
      intro piece hpiece
      rw [← hrest] at hpiece
      exact not_mem_of_mem_pieces hpiece
    obtain ⟨hplainKept, hplainBack⟩ := List.forall_mem_append.1 hplain
    have hbackNe : back ≠ [] := by
      rintro rfl
      exact hback rfl
    have hmore : pieces (Text.join "/" back) = back := pieces_join hbackNe hplainBack
    refine ⟨Text.join "/" back, by rw [hmore]; exact settled_ne_nil_iff.1 hback, ?_⟩
    by_cases hne : kept = []
    · subst hne
      refine .inl ⟨rfl, ?_⟩
      rw [List.nil_append] at hrest
      rw [← hrest, join_pieces]
    · obtain ⟨front, name, rfl⟩ := kept.eq_nil_or_concat.resolve_left hne
      rw [List.concat_eq_append] at hkept hrest hplainKept hne ⊢
      refine .inr ⟨⟨name, ?_, significant_of_settled hkept⟩, ?_⟩
      · rw [pieces_ofPieces hne hplainKept, ← List.cons_append, List.getLast?_concat]
      · apply pieces_inj
        rw [pieces_append, pieces_absolute, hrest, pieces_ofPieces hne hplainKept, hmore,
          List.cons_append]

theorem isAbove_ofPieces_iff {above : String} {ps : List String}
    (h : ∀ piece ∈ ps, '/' ∉ piece.toList) :
    IsAbove above (ofPieces ps) ↔ ∃ kept, Keeps ps kept ∧ above = ofPieces kept := by
  rw [ofPieces, isAbove_iff]
  by_cases hne : ps = []
  · -- The root has an empty piece where there is none, and neither is significant.
    subst hne
    have hroot : settled (pieces (Text.join "/" [])) = [] := by decide
    simp [not_keeps hroot, not_keeps (show settled [] = [] from rfl)]
  · rw [pieces_join hne h]

theorem IsAbove.depth_lt {above p : String} (hp : isAbsolute p = true) (h : IsAbove above p) :
    depth above < depth p := by
  obtain ⟨rest, rfl⟩ := isAbsolute_iff_exists.1 hp
  obtain ⟨kept, ⟨-, back, hrest, hback⟩, rfl⟩ := isAbove_iff.1 h
  have hplain : ∀ piece ∈ kept, '/' ∉ piece.toList := fun piece hpiece =>
    not_mem_of_mem_pieces (hrest ▸ List.mem_append_left back hpiece)
  obtain ⟨piece, hpiece, hsignificant⟩ := settled_ne_nil_iff.1 hback
  have hpos : 0 < (back.filter significant).length :=
    List.length_pos_of_mem (List.mem_filter.2 ⟨hpiece, hsignificant⟩)
  rw [depth, depth, names_ofPieces hplain, names_absolute, hrest, List.filter_append,
    List.length_append]
  omega

theorem IsAbove.length_lt {above p : String} (h : IsAbove above p) : above.length < p.length := by
  obtain ⟨rest, ⟨piece, hpiece, hsignificant⟩, ⟨rfl, rfl⟩ | ⟨-, rfl⟩⟩ := h
  · have hne : rest ≠ "" := by
      rintro rfl
      obtain rfl : piece = "" := by simpa [pieces_of_not_mem] using hpiece
      exact absurd hsignificant (by decide)
    have hpos : 0 < rest.length := by
      rw [← String.length_toList, List.length_pos_iff]
      simpa using hne
    rw [String.length_append]
    omega
  · have hslash : "/".length = 1 := rfl
    rw [String.length_append, String.length_append]
    omega

/-! ### The path without its last name -/

theorem parent?_of_settled_nil {rest : String} (h : settled (pieces rest) = []) :
    parent? ("/" ++ rest) = none := by
  have hend : dropInsignificantEnd (pieces ("/" ++ rest)) = [""] := by
    rw [pieces_absolute]
    show "" :: settled (pieces rest) = [""]
    rw [h]
  rw [parent?, hend]
  rfl

theorem parent?_of_settled_concat {rest name : String} {front : List String}
    (h : settled (pieces rest) = front ++ [name]) :
    parent? ("/" ++ rest) = some (ofPieces (settled front)) := by
  have hend : (dropInsignificantEnd (pieces ("/" ++ rest))).reverse =
      name :: (front.reverse ++ [""]) := by
    rw [pieces_absolute]
    show ("" :: settled (pieces rest)).reverse = _
    simp [h]
  obtain ⟨piece, others, hothers⟩ :=
    List.exists_cons_of_ne_nil (show front.reverse ++ [""] ≠ [] by simp)
  have hfront : (piece :: others).reverse = "" :: front := by
    simp [← hothers]
  have hkept : dropInsignificantEnd ("" :: front) = "" :: settled front := rfl
  rw [parent?, hend, hothers]
  dsimp only
  rw [hfront, hkept]
  by_cases hne : settled front = []
  · rw [hne]
    rfl
  · rw [← join_cons_empty hne]
    split
    · next heq => simp [hne] at heq
    · rfl

/-- Nothing is above a path without a last name. Otherwise the path without it is above, and so is
exactly what is above that. -/
theorem parent?_cases {p : String} (hp : isAbsolute p = true) :
    (parent? p = none ∧ ∀ above, ¬IsAbove above p) ∨
      ∃ parent, parent? p = some parent ∧ isAbsolute parent = true ∧
        ∀ above, IsAbove above p ↔ AtOrAbove above parent := by
  obtain ⟨rest, rfl⟩ := isAbsolute_iff_exists.1 hp
  by_cases hnil : settled (pieces rest) = []
  · refine .inl ⟨parent?_of_settled_nil hnil, fun above h => ?_⟩
    obtain ⟨kept, hkeeps, -⟩ := isAbove_iff.1 h
    exact not_keeps hnil kept hkeeps
  · obtain ⟨front, name, hlast⟩ := (settled (pieces rest)).eq_nil_or_concat.resolve_left hnil
    rw [List.concat_eq_append] at hlast
    refine .inr ⟨_, parent?_of_settled_concat hlast, isAbsolute_ofPieces _, fun above => ?_⟩
    have hplain : ∀ piece ∈ settled front, '/' ∉ piece.toList := by
      intro piece hpiece
      have hfront : piece ∈ front := (List.rdropWhile_prefix _ _).subset hpiece
      have hmem : piece ∈ settled (pieces rest) := hlast ▸ List.mem_append_left _ hfront
      exact not_mem_of_mem_pieces ((List.rdropWhile_prefix _ _).subset hmem)
    rw [AtOrAbove, isAbove_iff, isAbove_ofPieces_iff hplain]
    simp only [keeps_iff hlast, or_and_right, exists_or, exists_eq_left]

end Path

/-! ### All directories above a path -/

namespace Settings

open SqlMapper.Path

variable {directory above : String} {fuel : Nat}

/-- The fuel is enough as long as it is not less than the length of the path, since every directory
above a path is shorter. -/
theorem ancestorsUpTo_lists (habsolute : isAbsolute directory = true)
    (hfuel : directory.length ≤ fuel) :
    (∀ above, above ∈ ancestorsUpTo fuel directory ↔ AtOrAbove above directory) ∧
      (ancestorsUpTo fuel directory).Pairwise fun a b => depth b < depth a := by
  induction fuel generalizing directory with
  | zero =>
    have hnone : ∀ above, ¬IsAbove above directory := by
      intro above h
      have hlt := h.length_lt
      omega
    exact ⟨by simp [ancestorsUpTo, AtOrAbove, hnone], List.pairwise_singleton _ _⟩
  | succ fuel ih =>
    rw [ancestorsUpTo]
    rcases parent?_cases habsolute with ⟨hparent, hnone⟩ | ⟨parent, hparent, hroot, habove⟩
    · rw [hparent]
      exact ⟨by simp [AtOrAbove, hnone], List.pairwise_singleton _ _⟩
    · have hlt : parent.length < directory.length :=
        IsAbove.length_lt ((habove parent).2 (.inl rfl))
      obtain ⟨hmem, hpairwise⟩ := ih hroot (by omega)
      rw [hparent]
      refine ⟨fun above => ?_, List.pairwise_cons.2 ⟨fun above hlisted => ?_, hpairwise⟩⟩
      · rw [List.mem_cons, hmem, ← habove]
        rfl
      · rw [hmem, ← habove] at hlisted
        exact hlisted.depth_lt habsolute

theorem mem_ancestors (habsolute : isAbsolute directory = true) :
    above ∈ ancestors directory ↔ AtOrAbove above directory :=
  (ancestorsUpTo_lists habsolute (Nat.le_succ _)).1 above

/-- A directory and those above it are listed from the deepest to the root, each once. -/
theorem pairwise_depth_ancestors (habsolute : isAbsolute directory = true) :
    (ancestors directory).Pairwise fun a b => depth b < depth a :=
  (ancestorsUpTo_lists habsolute (Nat.le_succ _)).2

end Settings

end SqlMapper

import SqlMapper.Path
import SqlMapper.Proofs.Chars.Cut
import SqlMapper.Proofs.Chars.Join
import SqlMapper.Proofs.Chars.Pieces
import SqlMapper.Proofs.First

/-!
# Paths and their pieces

A path is cut into pieces at its slashes, and a slash between two texts keeps the pieces of both.
Questions about the text of a path therefore become questions about a list of pieces, in which
only the significant ones count.

## Main definitions

* `Path.EndsIn`: the last significant piece of a path.

## Main statements

* `Path.pieces_append`, `Path.pieces_join`, `Path.pieces_inj`: texts and pieces.
* `Path.fileName?_eq_some_iff`, `Path.extension?_eq_some_iff`: the last name and its extension.
-/

namespace SqlMapper.Path

/-! ### Pieces -/

theorem pieces_eq (p : String) : pieces p = (p.toList.splitOn '/').map String.ofList := by
  show (Chars.splitOn ['/'] p.toList).map String.ofList = _
  rw [Chars.splitOn_singleton]

theorem pieces_ne_nil (p : String) : pieces p ≠ [] := by
  rw [pieces_eq]
  simp

/-- A slash between two texts keeps their pieces apart. -/
theorem pieces_append (front rest : String) :
    pieces (front ++ "/" ++ rest) = pieces front ++ pieces rest := by
  have hslash : (front ++ "/" ++ rest).toList = front.toList ++ '/' :: rest.toList := by simp
  rw [pieces_eq, pieces_eq, pieces_eq, hslash, List.splitOn_append_cons_self, List.map_append]

theorem pieces_absolute (rest : String) : pieces ("/" ++ rest) = "" :: pieces rest :=
  pieces_append "" rest

theorem join_pieces (p : String) : Text.join "/" (pieces p) = p := by
  rw [← String.toList_inj, Text.toList_join, pieces_eq, List.map_map]
  have hid : String.toList ∘ String.ofList = id := by
    funext cs
    exact String.toList_ofList
  rw [hid, List.map_id]
  exact List.intercalate_splitOn '/'

theorem pieces_inj {p q : String} (h : pieces p = pieces q) : p = q := by
  rw [← join_pieces p, h, join_pieces]

theorem not_mem_of_mem_pieces {p piece : String} (h : piece ∈ pieces p) :
    '/' ∉ piece.toList := by
  obtain ⟨cs, hcs, rfl⟩ := List.mem_map.1 h
  rw [String.toList_ofList]
  intro hmem
  obtain ⟨front, back, rfl⟩ := List.append_of_mem hmem
  exact Chars.not_infix_of_mem_splitOn (by simp) hcs ⟨front, back, by simp⟩

theorem pieces_join {ps : List String} (hne : ps ≠ []) (h : ∀ piece ∈ ps, '/' ∉ piece.toList) :
    pieces (Text.join "/" ps) = ps := by
  apply Text.splitOn_join (by decide) hne
  intro piece hpiece hoccurs
  have hslash : '/' ∈ piece.toList ++ "/".toList.dropLast := hoccurs.subset (by simp)
  exact h piece hpiece (by simpa using hslash)

theorem pieces_of_not_mem {name : String} (h : '/' ∉ name.toList) : pieces name = [name] := by
  show pieces (Text.join "/" [name]) = [name]
  exact pieces_join (by simp) (by simpa using h)

/-! ### Absolute paths -/

theorem isAbsolute_iff {p : String} : isAbsolute p = true ↔ ['/'] <+: p.toList :=
  List.isPrefixOf_iff_prefix

theorem isAbsolute_iff_exists {p : String} : isAbsolute p = true ↔ ∃ rest, p = "/" ++ rest := by
  rw [isAbsolute_iff]
  constructor
  · rintro ⟨rest, hrest⟩
    refine ⟨String.ofList rest, ?_⟩
    rw [← String.toList_inj, ← hrest]
    simp
  · rintro ⟨rest, rfl⟩
    exact ⟨rest.toList, by simp⟩

theorem isAbsolute_append {p : String} (h : isAbsolute p = true) (q : String) :
    isAbsolute (p ++ q) = true := by
  rw [isAbsolute_iff, String.toList_append]
  exact (isAbsolute_iff.1 h).trans (List.prefix_append _ _)

/-- Whatever is seen from an absolute directory is absolute. -/
theorem isAbsolute_join {base : String} (h : isAbsolute base = true) (p : String) :
    isAbsolute (join base p) = true := by
  unfold join
  split
  · assumption
  · split
    · exact isAbsolute_append h p
    · exact isAbsolute_append (isAbsolute_append h "/") p

theorem same_self (p : String) : same p p = true := by
  simp [same]

/-! ### The last name -/

/-- The name is the last significant piece of the path. -/
def EndsIn (p name : String) : Prop :=
  ∃ before after, pieces p = before ++ name :: after ∧ significant name = true ∧
    ∀ piece ∈ after, significant piece = false

theorem getLast?_significant_eq_some_iff {p name : String} :
    ((pieces p).filter significant).getLast? = some name ↔ EndsIn p name := by
  rw [List.getLast?_filter, find?_reverse_eq_some_iff]
  rfl

/-- A dot in front is the last name only where no significant piece follows, and is no file name
then. -/
theorem fileName?_eq (p : String) :
    fileName? p = ((pieces p).filter significant).getLast?.filter fun name => name ≠ ".." := by
  unfold fileName? names
  obtain ⟨first, rest, hpieces⟩ := List.exists_cons_of_ne_nil (pieces_ne_nil p)
  rw [hpieces]
  show ((if first = "" then [] else [first]) ++ rest.filter significant).getLast?.filter _ = _
  cases hlast : (rest.filter significant).getLast? with
  | some name =>
    have hname : significant name = true :=
      (List.mem_filter.1 (List.mem_of_getLast? hlast)).2
    have hdot : name ≠ "." := by simpa [significant] using (Bool.and_eq_true_iff.1 hname).2
    have hfront : ((first :: rest).filter significant).getLast? = some name := by
      rw [List.filter_cons]
      split <;> simp [hlast, List.getLast?_cons]
    rw [List.getLast?_append, hlast, hfront]
    simp [Option.filter, hdot]
  | none =>
    rw [List.getLast?_eq_none_iff] at hlast
    rw [hlast, List.append_nil, List.filter_cons, hlast]
    by_cases hempty : first = ""
    · simp [hempty, significant]
    · by_cases hdot : first = "."
      · simp [hdot, significant]
      · simp [hempty, hdot, significant, Option.filter]

theorem fileName?_eq_some_iff {p name : String} :
    fileName? p = some name ↔ EndsIn p name ∧ name ≠ ".." := by
  rw [fileName?_eq, Option.filter_eq_some_iff, getLast?_significant_eq_some_iff, decide_eq_true_iff]

/-- Pieces in front of others matter for the last name only if those are not significant. -/
theorem fileName?_append (front rest : String) :
    fileName? (front ++ "/" ++ rest) =
      (((pieces rest).filter significant).getLast?.or
        ((pieces front).filter significant).getLast?).filter fun name => name ≠ ".." := by
  rw [fileName?_eq, pieces_append, List.filter_append, List.getLast?_append]

/-! ### Extensions -/

theorem beforeLast?_dot {name stem extension : List Char} (h : '.' ∉ extension)
    (hname : name = stem ++ '.' :: extension) :
    Chars.beforeLast? (· == '.') name = some stem ∧
      Chars.afterLast (· == '.') name = extension := by
  have hrest : ∀ d ∈ extension, (d == '.') = false := by
    intro d hd
    exact beq_false_of_ne (ne_of_mem_of_not_mem hd h)
  rw [hname]
  exact ⟨Chars.beforeLast?_append_cons (· == '.') _ (by decide) hrest,
    Chars.afterLast_append_cons (· == '.') _ (by decide) hrest⟩

/-- The extension is what stands behind the last dot of the file name, if that dot is not in
front. -/
theorem extension?_eq_some_iff {p extension : String} :
    extension? p = some extension ↔
      ∃ stem, stem ≠ "" ∧ '.' ∉ extension.toList ∧
        fileName? p = some (stem ++ "." ++ extension) := by
  unfold extension?
  cases fileName? p with
  | none => simp
  | some name =>
    show ((Chars.beforeLast? (· == '.') name.toList).bind fun stem => _) = _ ↔ _
    constructor
    · intro h
      have hdots : '.' ∉ Chars.afterLast (· == '.') name.toList := by
        intro hmem
        simpa using Chars.not_of_mem_afterLast (· == '.') hmem
      rcases Chars.afterLast_cases (· == '.') name.toList with hall | ⟨stem, c, hc, hsplit⟩
      · have hnone : Chars.beforeLast? (· == '.') name.toList = none :=
          Chars.beforeLast?_eq_none _ fun c hc =>
            Chars.not_of_mem_afterLast (· == '.') (hall.symm ▸ hc)
        rw [hnone] at h
        cases h
      · obtain rfl : c = '.' := by simpa using hc
        rw [(beforeLast?_dot hdots hsplit).1, Option.bind_some] at h
        split at h
        · cases h
        · next hstem =>
          obtain rfl := Option.some.inj h
          refine ⟨String.ofList stem, by simpa using hstem, by simpa using hdots, ?_⟩
          rw [Option.some.injEq, ← String.toList_inj]
          exact hsplit.trans (by simp)
    · rintro ⟨stem, hstem, hdots, hname⟩
      obtain rfl := Option.some.inj hname
      have hsplit : (stem ++ "." ++ extension).toList = stem.toList ++ '.' :: extension.toList := by
        simp
      obtain ⟨hbefore, hafter⟩ := beforeLast?_dot hdots hsplit
      rw [hbefore, hafter]
      simp [hstem]

end SqlMapper.Path

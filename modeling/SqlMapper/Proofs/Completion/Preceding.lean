import SqlMapper.Proofs.Completion.Segments

/-!
# Text in front of a token

Under the standard marks no mark around a path reaches over a blank. So all cuts that are made at a
token are made in the same way when other text and a blank stand in front of it. Only the blank
itself is left there, and what becomes of it depends on how the token begins: in front of a name it
is trimmed away, but in front of a separator it counts as a name of its own, an empty one.

## Main statements

* `TypedPath.names_cons`: the names behind a blank.
* `tokenize?_append_token`: the path of a token behind other text.
-/

namespace SqlMapper

namespace TypedPath

theorem dropPlaceholder_append_cons (maxDepth : Nat) {c : Char} (hc : Chars.isBlank c = true)
    (front : List Char) {text : List Char} (hne : text ≠ [])
    (htext : ∀ d ∈ text, Chars.isBlank d = false) :
    dropPlaceholder (Markers.upTo maxDepth) (front ++ c :: text) =
      ((front ++ c :: (dropPlaceholder (Markers.upTo maxDepth) text).1),
        (dropPlaceholder (Markers.upTo maxDepth) text).2) := by
  have hplain : ∀ d ∈ Chars.trim "IntellijIdeaRulezzz ".toList, Chars.isBlank d = false :=
    isBlank_of_all (by decide)
  -- With its blank the placeholder cannot stand at an end that has none.
  have hnone : ∀ before, withoutEnd? "IntellijIdeaRulezzz ".toList (before ++ text) = none := by
    intro before
    apply withoutEnd?_eq_none
    intro hsuffix
    have hlast := getLast?_eq_of_isSuffix hsuffix (by decide)
    rw [getLast?_eq_of_isSuffix (List.suffix_append before text) hne |>.symm] at hlast
    have hblank := htext ' ' (List.mem_of_getLast? (hlast.symm.trans (by decide)))
    exact absurd hblank (by decide)
  have hself := hnone []
  rw [List.nil_append] at hself
  have hlong := hnone (front ++ [c])
  rw [List.append_assoc, List.singleton_append] at hlong
  rw [dropPlaceholder, dropPlaceholder, placeholder_upTo,
    withoutEnd?_append_cons (not_mem_of_isBlank hplain hc), hself, hlong]
  cases withoutEnd? (Chars.trim "IntellijIdeaRulezzz ".toList) text <;> rfl

/-! ### Names behind a blank -/

theorem closed_cons {text : List Char} (hne : text ≠ []) (c : Char) :
    closed ['.'] (c :: text) = c :: closed ['.'] text := by
  have hsuffix : ['.'].isSuffixOf (c :: text) = ['.'].isSuffixOf text := by
    rw [Bool.eq_iff_iff, List.isSuffixOf_iff_suffix, List.isSuffixOf_iff_suffix,
      List.suffix_cons_iff]
    simp [hne]
  unfold closed
  rw [hsuffix]
  split <;> rfl

theorem exists_closed_cons (c : Char) (text : List Char) :
    ∃ rest, closed ['.'] (c :: text) = c :: rest := by
  unfold closed
  split
  · exact ⟨text ++ [' '], rfl⟩
  · exact ⟨text, rfl⟩

theorem splitOn_singleton_cons (c : Char) (text : List Char) :
    Chars.splitOn ['.'] (c :: text) =
      if c = '.' then [] :: Chars.splitOn ['.'] text
      else Chars.consPiece c (Chars.splitOn ['.'] text) := by
  by_cases hc : c = '.'
  · simp [Chars.splitOn, Chars.piecesAfter, List.isPrefixOf, hc]
  · simp [Chars.splitOn, Chars.piecesAfter, List.isPrefixOf, hc, Ne.symm hc]

theorem trim_cons {c : Char} (hc : Chars.isBlank c = true) (text : List Char) :
    Chars.trim (c :: text) = Chars.trim text := by
  simp [Chars.trim, Chars.trimStart, hc]

/-- A blank in front of a text is a name of its own if a separator follows, and else it goes. -/
theorem names_cons {c : Char} (hc : Chars.isBlank c = true) {text : List Char} (hne : text ≠ []) :
    names ['.'] (c :: text) =
      if text.head? = some '.' then [] :: names ['.'] text else names ['.'] text := by
  have hdot : c ≠ '.' := by
    rintro rfl
    exact absurd hc (by decide)
  rw [names_eq_pieces, names_eq_pieces, closed_cons hne, splitOn_singleton_cons, if_neg hdot]
  obtain ⟨first, text, rfl⟩ := List.exists_cons_of_ne_nil hne
  obtain ⟨rest, hclosed⟩ := exists_closed_cons first text
  rw [hclosed, splitOn_singleton_cons]
  by_cases hfirst : first = '.'
  · -- The piece before the separator is dropped if it is empty, but not if it is a blank.
    have htrim : Chars.trim [c] = [] := by
      rw [trim_cons hc]
      rfl
    simp [hfirst, Chars.consPiece, htrim]
  · obtain ⟨piece, pieces, hpieces⟩ : ∃ piece pieces,
        Chars.splitOn ['.'] rest = piece :: pieces := by
      apply List.exists_cons_of_ne_nil
      rw [Chars.splitOn_eq_piecesAfter (List.cons_ne_nil _ _)]
      exact Chars.piecesAfter_ne_nil _ _ _
    simp [hfirst, hpieces, Chars.consPiece, trim_cons hc]

theorem segmentsOf_nil (maxDepth : Nat) : segmentsOf (Markers.upTo maxDepth) [] = [] := by
  have hcloser := List.prefix_nil.1 (prefix_dropCloser (Markers.upTo maxDepth) [])
  have hopens : ∀ rest, ¬ Opens [] rest := by
    rintro rest ⟨mark, -, hmark⟩
    cases hmark
  rw [segmentsOf, separator_upTo, hcloser, dropOpener_of_not_opens maxDepth hopens]
  rfl

/-- The segments of a text without blanks and without a mark in front, behind other text. -/
theorem segmentsOf_append_cons (maxDepth : Nat) {c : Char} (hc : Chars.isBlank c = true)
    (front : List Char) {text : List Char} (htext : ∀ d ∈ text, Chars.isBlank d = false)
    (hopens : ∀ rest, ¬ Opens text rest) (hne : segmentsOf (Markers.upTo maxDepth) text ≠ []) :
    segmentsOf (Markers.upTo maxDepth) (front ++ c :: text) =
      if text.head? = some '.' then "" :: segmentsOf (Markers.upTo maxDepth) text
      else segmentsOf (Markers.upTo maxDepth) text := by
  obtain ⟨rest, closes, hcloser⟩ :
      ∃ rest closes, dropCloser (Markers.upTo maxDepth) text = (rest, closes) := ⟨_, _, rfl⟩
  have hstart := prefix_dropCloser (Markers.upTo maxDepth) text
  have hlonger := dropCloser_append_cons (unspaced_upTo maxDepth) hc front text
  rw [hcloser] at hstart hlonger
  have hplain : ∀ d ∈ rest, Chars.isBlank d = false := fun d hd => htext d (hstart.subset hd)
  have hself : segmentsOf (Markers.upTo maxDepth) text = (names ['.'] rest).map String.ofList := by
    have hnot : ∀ more, ¬ Opens rest more := by
      intro more hmore
      obtain ⟨last, rfl⟩ := hstart
      exact hopens _ (hmore.append last)
    have hwhole : fromLastBlank rest = rest := fromLastBlank_append [] hplain
    rw [segmentsOf, separator_upTo, hcloser, dropOpener_of_not_opens maxDepth hnot, hwhole]
  have hbehind : segmentsOf (Markers.upTo maxDepth) (front ++ c :: text) =
      (names ['.'] (c :: rest)).map String.ofList := by
    obtain ⟨front', hfront⟩ :=
      exists_dropOpener_append_cons (unspaced_upTo maxDepth) hc front rest
    rw [segmentsOf, separator_upTo, hlonger, hfront, fromLastBlank_append_cons front' hc hplain]
  have hrest : rest ≠ [] := by
    rintro rfl
    exact hne hself
  rw [hbehind, hself, names_cons hc hrest, head?_eq_of_isPrefix hstart hrest]
  split <;> rfl

theorem not_opens_of_startsWith {maxDepth : Nat} {token : String}
    (hopener : Text.startsWith token (Markers.upTo maxDepth).opener = false)
    (htextOpener : Text.startsWith token (Markers.upTo maxDepth).textOpener = false)
    (rest : List Char) : ¬ Opens token.toList rest := by
  rw [Text.startsWith, opener_upTo] at hopener
  rw [Text.startsWith, textOpener_upTo] at htextOpener
  rintro ⟨mark, rfl | rfl, htoken⟩
  · simp [htoken, List.isPrefixOf] at hopener
  · simp [htoken, List.isPrefixOf] at htextOpener

end TypedPath

open TypedPath

theorem Text.startsWith_separator (s : String) :
    Text.startsWith s "." = true ↔ s.toList.head? = some '.' := by
  rw [Text.startsWith, List.isPrefixOf_iff_prefix, show ".".toList = ['.'] by decide]
  cases s.toList with
  | nil => simp
  | cons c cs =>
    rw [List.cons_prefix_cons, List.head?_cons, Option.some.injEq, eq_comm]
    simp

/-- A token behind other text and a blank has the path that it has alone, unless it begins with a
separator: then an empty name is put in front of the path. -/
theorem tokenize?_append_token {maxDepth : Nat} {front token : String} {path : TypedPath}
    (hfront : ∃ c ∈ front.toList.getLast?, Chars.isBlank c = true)
    (htoken : ∀ c ∈ token.toList, Chars.isBlank c = false)
    (hopener : Text.startsWith token (Markers.upTo maxDepth).opener = false)
    (htextOpener : Text.startsWith token (Markers.upTo maxDepth).textOpener = false)
    (hpath : tokenize? (Markers.upTo maxDepth) token = some path) :
    tokenize? (Markers.upTo maxDepth) (front ++ token) =
      some ⟨if Text.startsWith token "." then "" :: path.segments else path.segments,
        path.expectsPrefix⟩ := by
  obtain ⟨c, hlast, hc⟩ := hfront
  obtain ⟨before, hbefore⟩ := List.getLast?_eq_some_iff.1 hlast
  obtain ⟨text, narrows, hdrop⟩ : ∃ text narrows,
      dropPlaceholder (Markers.upTo maxDepth) token.toList = (text, narrows) := ⟨_, _, rfl⟩
  have hstart := prefix_dropPlaceholder (Markers.upTo maxDepth) token.toList
  rw [hdrop] at hstart
  obtain ⟨hsegments, rfl⟩ := (tokenize?_eq_some_iff hdrop).1 hpath
  have hne : text ≠ [] := by
    rintro rfl
    exact hsegments (segmentsOf_nil maxDepth)
  -- What is left of the token has neither a blank nor a mark in front, since the token has none.
  have hplain : ∀ d ∈ text, Chars.isBlank d = false := fun d hd => htoken d (hstart.subset hd)
  have hopens : ∀ rest, ¬ Opens text rest := by
    intro rest hrest
    obtain ⟨last, htext⟩ := hstart
    exact not_opens_of_startsWith hopener htextOpener _ (htext ▸ hrest.append last)
  have hlonger := dropPlaceholder_append_cons maxDepth hc before
    (hstart.ne_nil hne) htoken
  rw [hdrop] at hlonger
  have hraw : (front ++ token).toList = before ++ c :: token.toList := by
    simp [hbefore]
  rw [← hraw] at hlonger
  rw [tokenize?_eq_some_iff hlonger, dropCloser_append_cons (unspaced_upTo maxDepth) hc before,
    segmentsOf_append_cons maxDepth hc before hplain hopens hsegments,
    head?_eq_of_isPrefix hstart hne]
  by_cases hdot : token.toList.head? = some '.'
  · rw [if_pos hdot, if_pos ((Text.startsWith_separator token).2 hdot)]
    exact ⟨List.cons_ne_nil _ _, rfl⟩
  · rw [if_neg hdot, if_neg fun hbegins => hdot ((Text.startsWith_separator token).1 hbegins)]
    exact ⟨hsegments, rfl⟩

/-- A separator that was just typed is one empty name if it stands alone, and two behind a word. -/
theorem tokenize?_append_token_separator :
    tokenize? (Markers.upTo 32) "." = some ⟨[""], false⟩ ∧
      tokenize? (Markers.upTo 32) ("and " ++ ".") = some ⟨["", ""], false⟩ := by
  have hpath : tokenize? (Markers.upTo 32) "." = some ⟨[""], false⟩ := by decide +kernel
  have hfront : ∃ c ∈ "and ".toList.getLast?, Chars.isBlank c = true :=
    ⟨' ', by decide, by decide⟩
  refine ⟨hpath, ?_⟩
  rw [tokenize?_append_token hfront (isBlank_of_all (by decide)) (by decide) (by decide) hpath]
  decide

end SqlMapper

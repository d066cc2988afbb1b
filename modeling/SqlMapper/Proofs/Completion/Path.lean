import SqlMapper.Completion.Path
import SqlMapper.Proofs.Chars.Cut

/-!
# The path at the end of a text

Under the standard marks, the text in front of a caret gives a path in three cuts: the mark in
front of a parameter goes, then everything before the last blank, and the rest is divided at its
separators. Each cut looks at one end of the text only, so text added at the other end passes
through it unchanged.

## Main definitions

* `Markers.upTo`: the standard marks, with a cap of one's own.
* `TypedPath.typed`: the part of a text that is being typed.
* `TypedPath.closedNames`, `TypedPath.openName`: the names before the last separator, and the name
  behind it.
* `pathAtCaret?`: the path in front of a caret.

## Main statements

* `pathAtCaret?_eq`: the path, by the names in the part being typed.
* `pathAtCaret?_append`: the path after typing on.
* `exists_pathAtCaret?_replaced`: the path after its last name is replaced and followed by a
  separator.
-/

namespace SqlMapper

/-- The standard marks, with a cap of one's own on the names of a path. -/
def Markers.upTo (maxDepth : Nat) : Markers :=
  { Markers.standard with maxDepth }

namespace TypedPath

/-- Text that goes on with the name being typed: it has no blank, no separator and no brace. -/
def IsPlain (text : List Char) : Prop :=
  ∀ c ∈ text, Chars.isBlank c = false ∧ c ≠ '.' ∧ c ≠ '\x7b' ∧ c ≠ '\x7d'

instance (text : List Char) : Decidable (IsPlain text) :=
  -- Through the list: there are too many characters to go through all of them.
  List.decidableBAll _ text

theorem IsPlain.not_isBlank {text : List Char} (h : IsPlain text) :
    ∀ c ∈ text, Chars.isBlank c = false :=
  fun c hc => (h c hc).1

theorem IsPlain.separator_not_mem {text : List Char} (h : IsPlain text) : '.' ∉ text :=
  fun hc => (h _ hc).2.1 rfl

theorem IsPlain.opener_not_mem {text : List Char} (h : IsPlain text) : '\x7b' ∉ text :=
  fun hc => (h _ hc).2.2.1 rfl

theorem IsPlain.closer_not_mem {text : List Char} (h : IsPlain text) : '\x7d' ∉ text :=
  fun hc => (h _ hc).2.2.2 rfl

/-- The part of a text that is being typed: behind the mark of a parameter, from the last blank
on. -/
def typed (maxDepth : Nat) (text : List Char) : List Char :=
  fromLastBlank (dropOpener (Markers.upTo maxDepth) text)

/-- The names of a text that are followed by a separator. -/
def closedNames (text : List Char) : List (List Char) :=
  ((Chars.splitOn ['.'] text).dropLast.filter fun piece => !piece.isEmpty).map Chars.trim

/-- The name behind the last separator of a text. -/
def openName (text : List Char) : List Char :=
  Chars.trim (Chars.afterLast (· == '.') text)

/-! ### The standard marks, character by character -/

theorem placeholder_upTo (maxDepth : Nat) :
    (Markers.upTo maxDepth).placeholder = "IntellijIdeaRulezzz " :=
  rfl

theorem opener_upTo (maxDepth : Nat) : (Markers.upTo maxDepth).opener.toList = ['#', '\x7b'] :=
  show "#\x7b".toList = _ by decide

theorem textOpener_upTo (maxDepth : Nat) :
    (Markers.upTo maxDepth).textOpener.toList = ['$', '\x7b'] :=
  show "$\x7b".toList = _ by decide

theorem closer_upTo (maxDepth : Nat) : (Markers.upTo maxDepth).closer.toList = ['\x7d'] :=
  show "\x7d".toList = _ by decide

theorem separator_upTo (maxDepth : Nat) : (Markers.upTo maxDepth).separator.toList = ['.'] :=
  show ".".toList = _ by decide

/-! ### Marks at the ends -/

/-- What is put behind a text can be taken off again. -/
theorem withoutEnd?_append {ending : List Char} (h : ending ≠ []) (text : List Char) :
    withoutEnd? ending (text ++ ending) = some text := by
  rw [withoutEnd?, if_neg (by simpa using h), List.isSuffixOf?_eq_some_iff_append_eq]

theorem withoutEnd?_eq_none {ending text : List Char} (h : ¬ ending <:+ text) :
    withoutEnd? ending text = none := by
  rw [withoutEnd?]
  split
  · rfl
  · rw [← Option.not_isSome_iff_eq_none, List.isSome_isSuffixOf?_eq_isSuffixOf]
    intro hsuffix
    exact h (List.isSuffixOf_iff_suffix.1 hsuffix)

/-- The placeholder is taken off with its blank. -/
theorem dropPlaceholder_append (maxDepth : Nat) (text : List Char) :
    dropPlaceholder (Markers.upTo maxDepth)
        (text ++ (Markers.upTo maxDepth).placeholder.toList) = (text, true) := by
  -- The trimmed placeholder is tried first; it does not fit, since the blank stands at the end.
  have htrim : ¬ Chars.trim "IntellijIdeaRulezzz ".toList <:+
      text ++ "IntellijIdeaRulezzz ".toList := by
    intro h
    have hsuffix : Chars.trim "IntellijIdeaRulezzz ".toList <:+ "IntellijIdeaRulezzz ".toList :=
      List.suffix_of_suffix_length_le h (List.suffix_append text _) (by decide)
    exact absurd hsuffix (by decide)
  rw [dropPlaceholder, placeholder_upTo, withoutEnd?_eq_none htrim,
    withoutEnd?_append (by decide)]

/-- A text that does not end with the mark behind a parameter stays as it is. -/
theorem dropCloser_of_not_suffix (maxDepth : Nat) {text : List Char} (h : ¬ ['\x7d'] <:+ text) :
    dropCloser (Markers.upTo maxDepth) text = (text, false) := by
  rw [dropCloser, closer_upTo, withoutEnd?_eq_none h]

/-- A text whose end has no such mark does not end with one. -/
theorem closer_not_suffix_append {text more : List Char}
    (htext : more = [] → ¬ ['\x7d'] <:+ text) (hmore : '\x7d' ∉ more) :
    ¬ ['\x7d'] <:+ text ++ more := by
  rintro ⟨front, hfront⟩
  rcases List.eq_nil_or_concat more with rfl | ⟨init, c, rfl⟩
  · rw [List.append_nil] at hfront
    exact htext rfl ⟨front, hfront⟩
  · rw [List.concat_eq_append, ← List.append_assoc] at hfront
    obtain ⟨-, hlast⟩ := List.append_inj' hfront rfl
    simp [← hlast] at hmore

/-! ### The mark in front of a parameter -/

/-- A text begins with one of the two marks of a parameter, and `rest` follows. -/
def Opens (text rest : List Char) : Prop :=
  ∃ c, (c = '#' ∨ c = '$') ∧ text = c :: '\x7b' :: rest

theorem Opens.append {text rest : List Char} (h : Opens text rest) (more : List Char) :
    Opens (text ++ more) (rest ++ more) := by
  obtain ⟨c, hc, rfl⟩ := h
  exact ⟨c, hc, rfl⟩

/-- A text that begins with a mark does so already without what is added later, if that has no
brace. -/
theorem exists_opens_of_append {text more rest : List Char} (hmore : '\x7b' ∉ more)
    (h : Opens (text ++ more) rest) : ∃ front, Opens text front := by
  obtain ⟨c, hc, htext⟩ := h
  -- The brace is the second character, so the text has at least two of its own.
  match text with
  | [] =>
    rw [List.nil_append] at htext
    have hbrace : '\x7b' ∈ more := by simp [htext]
    exact absurd hbrace hmore
  | [_] =>
    rw [List.cons_append, List.nil_append, List.cons.injEq] at htext
    have hbrace : '\x7b' ∈ more := by simp [htext.2]
    exact absurd hbrace hmore
  | first :: second :: front =>
    simp only [List.cons_append, List.cons.injEq] at htext
    exact ⟨front, c, hc, by rw [htext.1, htext.2.1]⟩

theorem dropOpener_of_opens (maxDepth : Nat) {text rest : List Char} (h : Opens text rest) :
    dropOpener (Markers.upTo maxDepth) text = rest := by
  rw [dropOpener, opener_upTo, textOpener_upTo]
  obtain ⟨c, rfl | rfl, rfl⟩ := h
  · rfl
  · rfl

theorem dropOpener_of_not_opens (maxDepth : Nat) {text : List Char}
    (h : ∀ rest, ¬ Opens text rest) : dropOpener (Markers.upTo maxDepth) text = text := by
  have hnone : ∀ c, c = '#' ∨ c = '$' → withoutStart? [c, '\x7b'] text = none := by
    intro c hc
    rw [withoutStart?, if_neg (by simp), Option.eq_none_iff_forall_ne_some]
    intro rest hrest
    rw [List.isPrefixOf?_eq_some_iff_append_eq] at hrest
    exact h rest ⟨c, hc, hrest.symm⟩
  rw [dropOpener, opener_upTo, textOpener_upTo, hnone _ (Or.inl rfl), hnone _ (Or.inr rfl)]
  rfl

/-- The mark in front is settled by the text alone, as long as no brace is added. -/
theorem dropOpener_append (maxDepth : Nat) (text : List Char) {more : List Char}
    (h : '\x7b' ∉ more) :
    dropOpener (Markers.upTo maxDepth) (text ++ more) =
      dropOpener (Markers.upTo maxDepth) text ++ more := by
  by_cases hopens : ∃ rest, Opens text rest
  · obtain ⟨rest, hrest⟩ := hopens
    rw [dropOpener_of_opens maxDepth hrest, dropOpener_of_opens maxDepth (hrest.append more)]
  · have hmore : ∀ rest, ¬ Opens (text ++ more) rest := by
      intro rest hrest
      exact hopens (exists_opens_of_append h hrest)
    rw [dropOpener_of_not_opens maxDepth (not_exists.1 hopens),
      dropOpener_of_not_opens maxDepth hmore]

/-- What stands at the end of the text behind the mark can be taken off before the mark is. -/
theorem exists_of_dropOpener_eq_append (maxDepth : Nat) {text front last : List Char}
    (h : dropOpener (Markers.upTo maxDepth) text = front ++ last) :
    ∃ before, text = before ++ last ∧ dropOpener (Markers.upTo maxDepth) before = front := by
  by_cases hopens : ∃ rest, Opens text rest
  · obtain ⟨rest, c, hc, rfl⟩ := hopens
    rw [dropOpener_of_opens maxDepth ⟨c, hc, rfl⟩] at h
    refine ⟨c :: '\x7b' :: front, by rw [h]; rfl, dropOpener_of_opens maxDepth ⟨c, hc, rfl⟩⟩
  · rw [dropOpener_of_not_opens maxDepth (not_exists.1 hopens)] at h
    subst h
    refine ⟨front, rfl, dropOpener_of_not_opens maxDepth ?_⟩
    intro rest hrest
    exact hopens ⟨rest ++ last, hrest.append last⟩

/-! ### The text from the last blank on -/

theorem fromLastBlank_of_afterLast_eq {text : List Char}
    (h : Chars.afterLast Chars.isBlank text = text) : fromLastBlank text = text := by
  simp [fromLastBlank, h]

theorem fromLastBlank_append_cons {c : Char} (front : List Char) {last : List Char}
    (hc : Chars.isBlank c = true) (hlast : ∀ d ∈ last, Chars.isBlank d = false) :
    fromLastBlank (front ++ c :: last) = c :: last := by
  have hafter : Chars.afterLast Chars.isBlank (front ++ c :: last) = last := by
    rw [List.append_cons, Chars.afterLast_append _ _ hlast, Chars.afterLast_concat _ _ hc]
    rfl
  have hlength : (front ++ c :: last).length - last.length - 1 = front.length := by
    rw [List.length_append, List.length_cons]
    omega
  rw [fromLastBlank, hafter, hlength, List.drop_left]

/-- What is added without a blank stands behind the last blank. -/
theorem fromLastBlank_append (text : List Char) {more : List Char}
    (h : ∀ c ∈ more, Chars.isBlank c = false) :
    fromLastBlank (text ++ more) = fromLastBlank text ++ more := by
  -- Either there is no blank, before and after, or the last one stays where it is.
  rcases Chars.afterLast_cases Chars.isBlank text with hall | ⟨front, c, hc, htext⟩
  · have hmore : Chars.afterLast Chars.isBlank (text ++ more) = text ++ more := by
      rw [Chars.afterLast_append _ _ h, hall]
    rw [fromLastBlank_of_afterLast_eq hall, fromLastBlank_of_afterLast_eq hmore]
  · have hlast : ∀ d ∈ Chars.afterLast Chars.isBlank text, Chars.isBlank d = false := by
      intro d hd
      exact Chars.not_of_mem_afterLast _ hd
    have hmore : ∀ d ∈ Chars.afterLast Chars.isBlank text ++ more, Chars.isBlank d = false := by
      intro d hd
      exact (List.mem_append.1 hd).elim (hlast d) (h d)
    rw [htext, fromLastBlank_append_cons front hc hlast, List.append_assoc, List.cons_append,
      fromLastBlank_append_cons front hc hmore]

/-- Only the first character of the text from the last blank on can be blank. -/
theorem not_isBlank_of_mem_tail {text : List Char} {c : Char}
    (h : c ∈ (fromLastBlank text).tail) : Chars.isBlank c = false := by
  rcases Chars.afterLast_cases Chars.isBlank text with hall | ⟨front, d, hd, htext⟩
  · rw [fromLastBlank_of_afterLast_eq hall] at h
    exact Chars.not_of_mem_afterLast _ (hall.symm ▸ List.mem_of_mem_tail h)
  · rw [htext, fromLastBlank_append_cons front hd fun e he => Chars.not_of_mem_afterLast _ he] at h
    exact Chars.not_of_mem_afterLast _ h

/-! ### Names and separators -/

/-- If the last piece of a text is not empty, it is one more name behind the closed ones. -/
theorem map_trim_pieces {text : List Char} (h : Chars.afterLast (· == '.') text ≠ []) :
    ((Chars.splitOn ['.'] text).filter fun piece => !piece.isEmpty).map Chars.trim =
      closedNames text ++ [openName text] := by
  have hpieces := Chars.splitOn_singleton_append text (List.not_mem_nil (a := '.'))
  rw [List.append_nil, List.append_nil] at hpieces
  rw [hpieces, List.filter_append, List.map_append, List.filter_cons_of_pos (by simpa using h)]
  rfl

/-- A text that is not empty has the names before its last separator and the name behind it,
which is empty if a separator stands at the end. -/
theorem names_eq {text : List Char} (h : text ≠ []) :
    names ['.'] text = closedNames text ++ [openName text] := by
  by_cases hend : ['.'] <:+ text
  · -- The blank behind the last separator keeps its empty name from being left out.
    obtain ⟨front, rfl⟩ := hend
    rw [names, if_pos (by simp), Chars.splitOn_singleton_append _ (by decide), openName,
      Chars.afterLast_concat _ _ (by decide), List.filter_append, List.map_append]
    rfl
  · have hlast : Chars.afterLast (· == '.') text ≠ [] := by
      intro hnil
      rcases Chars.afterLast_cases (· == '.') text with hall | ⟨front, c, hc, htext⟩
      · exact h (hall.symm.trans hnil)
      · rw [hnil, beq_iff_eq.1 hc] at htext
        exact hend ⟨front, htext.symm⟩
    rw [names, if_neg (by simpa using hend), map_trim_pieces hlast]

/-- Characters without a separator leave the names before the last one alone. -/
theorem closedNames_append (text : List Char) {more : List Char} (h : '.' ∉ more) :
    closedNames (text ++ more) = closedNames text := by
  rw [closedNames, Chars.splitOn_singleton_append text h, List.dropLast_concat, closedNames]

/-- A separator behind a name closes it. -/
theorem closedNames_concat {text : List Char} (h : Chars.afterLast (· == '.') text ≠ []) :
    closedNames (text ++ ['.']) = closedNames text ++ [openName text] := by
  rw [closedNames, Chars.splitOn_singleton_concat, List.dropLast_concat, map_trim_pieces h]

theorem openName_concat (text : List Char) : openName (text ++ ['.']) = [] := by
  rw [openName, Chars.afterLast_concat _ _ (by decide)]
  rfl

/-! ### The name being typed -/

section Typed

variable (maxDepth : Nat) (text : List Char)

/-- Characters other than blanks and braces are added to the part being typed. -/
theorem typed_append {more : List Char} (hbrace : '\x7b' ∉ more)
    (hblank : ∀ c ∈ more, Chars.isBlank c = false) :
    typed maxDepth (text ++ more) = typed maxDepth text ++ more := by
  rw [typed, dropOpener_append maxDepth text hbrace, fromLastBlank_append _ hblank, typed]

/-- Behind the last separator stand blanks and the open name. -/
theorem exists_blanks_append_openName :
    ∃ blanks,
      Chars.afterLast (· == '.') (typed maxDepth text) =
        blanks ++ openName (typed maxDepth text) ∧
      (∀ c ∈ blanks, Chars.isBlank c = true) ∧
      ∀ c ∈ openName (typed maxDepth text), Chars.isBlank c = false := by
  apply Chars.exists_blanks_append_trim
  intro c hc
  refine not_isBlank_of_mem_tail (show c ∈ (typed maxDepth text).tail from ?_)
  rcases Chars.afterLast_cases (· == '.') (typed maxDepth text) with hall | ⟨front, d, -, htyped⟩
  · rwa [hall] at hc
  · rw [htyped]
    have hmem := List.mem_of_mem_tail hc
    cases front with
    | nil =>
      rw [List.nil_append, List.tail_cons]
      exact hmem
    | cons e front =>
      rw [List.cons_append, List.tail_cons]
      exact List.mem_append_right front (List.mem_cons_of_mem d hmem)

theorem separator_not_mem_openName : '.' ∉ openName (typed maxDepth text) := by
  obtain ⟨blanks, hlast, -⟩ := exists_blanks_append_openName maxDepth text
  intro hmem
  have hmark := Chars.not_of_mem_afterLast (· == '.') (hlast ▸ List.mem_append_right blanks hmem)
  simp at hmark

/-- Characters other than blanks and separators go on with the open name. -/
theorem openName_typed_append {more : List Char} (hdot : '.' ∉ more)
    (hblank : ∀ c ∈ more, Chars.isBlank c = false) :
    openName (typed maxDepth text ++ more) = openName (typed maxDepth text) ++ more := by
  obtain ⟨blanks, hlast, hblanks, hopen⟩ := exists_blanks_append_openName maxDepth text
  have hname : ∀ c ∈ openName (typed maxDepth text) ++ more, Chars.isBlank c = false := by
    intro c hc
    exact (List.mem_append.1 hc).elim (hopen c) (hblank c)
  rw [openName, Chars.afterLast_append_of_not_mem _ hdot, hlast, List.append_assoc,
    Chars.trim_append hblanks hname]

/-- The open name stands at the end of the text. Taken off before anything else is, it leaves the
same closed names, and no open one. -/
theorem exists_typed_before :
    ∃ before, text = before ++ openName (typed maxDepth text) ∧
      closedNames (typed maxDepth before) = closedNames (typed maxDepth text) ∧
      openName (typed maxDepth before) = [] := by
  obtain ⟨blanks, hlast, -, hblank⟩ := exists_blanks_append_openName maxDepth text
  -- Every cut leaves an end of the text, so the open name is an end of each of them.
  have htyped : openName (typed maxDepth text) <:+ typed maxDepth text :=
    (hlast ▸ List.suffix_append blanks _).trans (Chars.afterLast_suffix (· == '.') _)
  obtain ⟨front, hfront⟩ := htyped.trans (List.drop_suffix _ _)
  obtain ⟨before, htext, hbefore⟩ := exists_of_dropOpener_eq_append maxDepth hfront.symm
  -- Made without the open name, the same cuts leave what they left before, less that name.
  have hsplit : typed maxDepth text = typed maxDepth before ++ openName (typed maxDepth text) :=
    calc typed maxDepth text
      _ = fromLastBlank (front ++ openName (typed maxDepth text)) := by rw [hfront, typed]
      _ = fromLastBlank front ++ openName (typed maxDepth text) := fromLastBlank_append _ hblank
      _ = typed maxDepth before ++ openName (typed maxDepth text) := by rw [← hbefore, ← typed]
  have hdot := separator_not_mem_openName maxDepth text
  refine ⟨before, htext, ?_, ?_⟩
  · rw [hsplit, closedNames_append _ hdot]
  · have hopen := openName_typed_append maxDepth before hdot hblank
    rw [← hsplit] at hopen
    exact List.self_eq_append_left.1 hopen

theorem typed_append_separator {name : List Char} (hname : IsPlain name) :
    typed maxDepth (text ++ name ++ ['.']) = typed maxDepth text ++ name ++ ['.'] := by
  have hblank : ∀ c ∈ ['.'], Chars.isBlank c = false := by
    intro c hc
    rw [List.mem_singleton.1 hc]
    decide
  rw [typed_append maxDepth _ (by decide) hblank,
    typed_append maxDepth text hname.opener_not_mem hname.not_isBlank]

/-- A plain name behind closed names is one more of them when a separator follows. -/
theorem closedNames_typed_append {name : List Char} (hopen : openName (typed maxDepth text) = [])
    (hne : name ≠ []) (hname : IsPlain name) :
    closedNames (typed maxDepth text ++ name ++ ['.']) =
      closedNames (typed maxDepth text) ++ [name] := by
  have hlast : Chars.afterLast (· == '.') (typed maxDepth text ++ name) ≠ [] := by
    rw [Chars.afterLast_append_of_not_mem _ hname.separator_not_mem]
    exact List.append_ne_nil_of_right_ne_nil _ hne
  rw [closedNames_concat hlast, closedNames_append _ hname.separator_not_mem,
    openName_typed_append maxDepth text hname.separator_not_mem hname.not_isBlank, hopen]
  rfl

end Typed

end TypedPath

/-- The path being typed in front of a caret, where an editor has put its placeholder. -/
def pathAtCaret? (maxDepth : Nat) (fragment : String) : Option TypedPath :=
  tokenize? (Markers.upTo maxDepth) (fragment ++ (Markers.upTo maxDepth).placeholder)

open TypedPath

/-- The path is made of the names in the part being typed, and there is none if nothing is. -/
theorem pathAtCaret?_eq (maxDepth : Nat) {fragment : String}
    (h : ¬ ['\x7d'] <:+ fragment.toList) :
    pathAtCaret? maxDepth fragment =
      if typed maxDepth fragment.toList = [] then none
      else some ⟨(closedNames (typed maxDepth fragment.toList)).map String.ofList ++
        [String.ofList (openName (typed maxDepth fragment.toList))], true⟩ := by
  rw [pathAtCaret?, tokenize?, String.toList_append, dropPlaceholder_append]
  dsimp only
  rw [dropCloser_of_not_suffix maxDepth h]
  dsimp only
  rw [separator_upTo, ← typed]
  by_cases hnil : typed maxDepth fragment.toList = []
  · rw [hnil, if_pos rfl]
    rfl
  · rw [names_eq hnil, if_neg hnil]
    split
    · next hempty => exact absurd hempty (by simp)
    · rw [List.map_append]
      rfl

theorem pathAtCaret?_eq_some_iff {maxDepth : Nat} {fragment : String} {path : TypedPath}
    (h : ¬ ['\x7d'] <:+ fragment.toList) :
    pathAtCaret? maxDepth fragment = some path ↔
      typed maxDepth fragment.toList ≠ [] ∧
        path = ⟨(closedNames (typed maxDepth fragment.toList)).map String.ofList ++
          [String.ofList (openName (typed maxDepth fragment.toList))], true⟩ := by
  rw [pathAtCaret?_eq maxDepth h]
  split
  · next hnil => simp [hnil]
  · next hne => simp [hne, eq_comm]

/-- Typing on keeps the names before the target and makes the target longer. -/
theorem pathAtCaret?_append {maxDepth : Nat} {fragment more : String} {path : TypedPath}
    (hcloser : ¬ ['\x7d'] <:+ fragment.toList) (hmore : IsPlain more.toList)
    (hpath : pathAtCaret? maxDepth fragment = some path) :
    ∃ names, path.segments = names ++ [path.target] ∧
      pathAtCaret? maxDepth (fragment ++ more) =
        some ⟨names ++ [path.target ++ more], true⟩ := by
  have htyped : typed maxDepth (fragment ++ more).toList =
      typed maxDepth fragment.toList ++ more.toList := by
    rw [String.toList_append, typed_append maxDepth _ hmore.opener_not_mem hmore.not_isBlank]
  have hmoreCloser : ¬ ['\x7d'] <:+ (fragment ++ more).toList := by
    rw [String.toList_append]
    exact closer_not_suffix_append (fun _ => hcloser) hmore.closer_not_mem
  obtain ⟨hne, rfl⟩ := (pathAtCaret?_eq_some_iff hcloser).1 hpath
  refine ⟨(closedNames (typed maxDepth fragment.toList)).map String.ofList, by simp [target], ?_⟩
  rw [pathAtCaret?_eq_some_iff hmoreCloser, htyped, closedNames_append _ hmore.separator_not_mem,
    openName_typed_append maxDepth _ hmore.separator_not_mem hmore.not_isBlank]
  exact ⟨by simp [hne], by simp [target]⟩

/-- The target can be replaced by any plain name. With a separator behind it, an empty target
follows. -/
theorem exists_pathAtCaret?_replaced {maxDepth : Nat} {fragment target : String}
    {names : List String} {path : TypedPath} (hcloser : ¬ ['\x7d'] <:+ fragment.toList)
    (hpath : pathAtCaret? maxDepth fragment = some path)
    (hsegments : path.segments = names ++ [target]) :
    ∃ before, fragment = before ++ target ∧
      ∀ name, name ≠ "" → IsPlain name.toList →
        pathAtCaret? maxDepth (before ++ name ++ ".") = some ⟨names ++ [name, ""], true⟩ := by
  obtain ⟨-, rfl⟩ := (pathAtCaret?_eq_some_iff hcloser).1 hpath
  obtain ⟨hnames, htarget⟩ := List.append_inj' hsegments List.length_singleton
  rw [List.singleton_inj] at htarget
  obtain ⟨before, hbefore, hclosed, hopen⟩ := exists_typed_before maxDepth fragment.toList
  refine ⟨String.ofList before, ?_, ?_⟩
  · rw [← htarget, ← String.ofList_append, ← hbefore, String.ofList_toList]
  · intro name hne hname
    have htext : (String.ofList before ++ name ++ ".").toList =
        before ++ name.toList ++ ['.'] := by
      simp
    have hdot : ¬ ['\x7d'] <:+ (String.ofList before ++ name ++ ".").toList := by
      rw [htext]
      exact closer_not_suffix_append (by simp) (by decide)
    rw [pathAtCaret?_eq_some_iff hdot, htext, typed_append_separator maxDepth before hname,
      closedNames_typed_append maxDepth before hopen (by simpa using hne) hname, hclosed,
      openName_concat, List.map_append, hnames]
    exact ⟨by simp, by simp⟩

end SqlMapper

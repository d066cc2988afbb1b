import Mathlib.Data.List.DropRight
import SqlMapper.Chars.Cut
import SqlMapper.Proofs.Chars.Blank

/-!
# Text that grows at its end

How cutting a text behaves when characters are added at its end. What lies before the last mark of
a kind is settled; only what stands behind it grows.

## Main statements

* `Chars.afterLast_cases`: a text is cut at its last mark.
* `Chars.afterLast_append`: the text after the last mark grows with the text.
* `Chars.afterLast_append_cons`, `Chars.beforeLast?_append_cons`: the two sides of the last mark.
* `Chars.splitOn_singleton_append`: so does the last piece, and no other piece changes.
* `Chars.exists_blanks_append_trim`: trimming a text with at most one blank, in front.
-/

namespace SqlMapper.Chars

/-! ### The text after the last mark -/

section AfterLast

variable (p : Char → Bool)

theorem afterLast_eq_rtakeWhile (text : List Char) :
    afterLast p text = text.rtakeWhile fun c => !p c :=
  rfl

theorem afterLast_suffix (text : List Char) : afterLast p text <:+ text :=
  List.rtakeWhile_suffix _ _

/-- A text either has no mark and is all that stands after the last one, or it is cut at its last
mark. -/
theorem afterLast_cases (text : List Char) :
    afterLast p text = text ∨
      ∃ front c, p c = true ∧ text = front ++ c :: afterLast p text := by
  rw [afterLast_eq_rtakeWhile]
  have hsplit := List.rdropWhile_append_rtakeWhile (p := fun c => !p c) (l := text)
  by_cases hfront : text.rdropWhile (fun c => !p c) = []
  · rw [hfront, List.nil_append] at hsplit
    exact Or.inl hsplit
  · have hmark := List.rdropWhile_last_not (fun c => !p c) text hfront
    refine Or.inr ⟨(text.rdropWhile fun c => !p c).dropLast, _, by simpa using hmark, ?_⟩
    rw [List.append_cons, List.dropLast_append_getLast, hsplit]

/-- No mark stands after the last one. -/
theorem not_of_mem_afterLast {text : List Char} {c : Char} (h : c ∈ afterLast p text) :
    p c = false := by
  rw [afterLast_eq_rtakeWhile] at h
  simpa using List.mem_rtakeWhile_imp h

/-- What is added without a mark stands after the last mark. -/
theorem afterLast_append (text : List Char) {more : List Char} (h : ∀ c ∈ more, p c = false) :
    afterLast p (text ++ more) = afterLast p text ++ more := by
  have hrun : ∀ c ∈ more.reverse, (!p c) = true := by
    intro c hc
    rw [h c (List.mem_reverse.1 hc)]
    rfl
  rw [afterLast, List.reverse_append, List.takeWhile_append_of_pos hrun, List.reverse_append,
    List.reverse_reverse]
  rfl

/-- No longer end of a text is without a mark. -/
theorem suffix_afterLast {text ending : List Char} (hending : ending <:+ text)
    (h : ∀ c ∈ ending, p c = false) : ending <:+ afterLast p text := by
  obtain ⟨front, rfl⟩ := hending
  rw [afterLast_append p front h]
  exact List.suffix_append _ _

/-- Nothing stands after a mark at the end. -/
theorem afterLast_concat {c : Char} (text : List Char) (hc : p c = true) :
    afterLast p (text ++ [c]) = [] := by
  simp [afterLast, hc]

theorem afterLast_append_cons {c : Char} (front : List Char) {after : List Char}
    (hc : p c = true) (h : ∀ d ∈ after, p d = false) :
    afterLast p (front ++ c :: after) = after := by
  rw [List.append_cons, afterLast_append p _ h, afterLast_concat p front hc, List.nil_append]

theorem beforeLast?_append_cons {c : Char} (front : List Char) {after : List Char}
    (hc : p c = true) (h : ∀ d ∈ after, p d = false) :
    beforeLast? p (front ++ c :: after) = some front := by
  have hrun : ∀ d ∈ after.reverse, (!p d) = true := by
    intro d hd
    rw [h d (List.mem_reverse.1 hd)]
    rfl
  have hrest : (front ++ c :: after).reverse.dropWhile (fun d => !p d) = c :: front.reverse := by
    rw [List.reverse_append, List.reverse_cons, List.append_assoc,
      List.dropWhile_append_of_pos hrun, List.singleton_append,
      List.dropWhile_cons_of_neg (by simp [hc])]
  rw [beforeLast?, hrest]
  simp

theorem beforeLast?_eq_none {text : List Char} (h : ∀ c ∈ text, p c = false) :
    beforeLast? p text = none := by
  have hrest : text.reverse.dropWhile (fun c => !p c) = [] := by
    simpa using h
  rw [beforeLast?, hrest]

theorem afterLast_append_of_not_mem {sep : Char} (text : List Char) {more : List Char}
    (h : sep ∉ more) :
    afterLast (· == sep) (text ++ more) = afterLast (· == sep) text ++ more := by
  apply afterLast_append
  intro c hc
  exact beq_false_of_ne (ne_of_mem_of_not_mem hc h)

end AfterLast

/-! ### Pieces between single characters -/

/-- With one character as the separator, the pieces are the ones that lists have in general. -/
theorem splitOn_singleton (sep : Char) (text : List Char) :
    splitOn [sep] text = text.splitOn sep := by
  rw [splitOn, if_neg (by simp)]
  induction text with
  | nil => rfl
  | cons c text ih =>
    rw [piecesAfter, List.splitOn_cons_eq_if_modifyHead, List.length_singleton, Nat.sub_self, ih]
    by_cases hc : c = sep
    · simp [hc, List.isPrefixOf]
    · obtain ⟨piece, pieces, hpieces⟩ :=
        List.exists_cons_of_ne_nil (List.splitOn_ne_nil sep text)
      simp [hc, Ne.symm hc, List.isPrefixOf, hpieces, consPiece]

/-- Adding characters without a separator changes the last piece only, which is the text after
the last separator. -/
theorem splitOn_singleton_append {sep : Char} (text : List Char) {more : List Char}
    (h : sep ∉ more) :
    splitOn [sep] (text ++ more) =
      (splitOn [sep] text).dropLast ++ [afterLast (· == sep) text ++ more] := by
  have hlast : sep ∉ afterLast (· == sep) text := by
    intro hmem
    simpa using not_of_mem_afterLast (· == sep) hmem
  have hmore : sep ∉ afterLast (· == sep) text ++ more := by
    simp [h, hlast]
  simp only [splitOn_singleton]
  rcases afterLast_cases (· == sep) text with hall | ⟨front, c, hc, htext⟩
  · rw [hall] at hlast hmore ⊢
    rw [List.splitOn_eq_singleton hlast, List.splitOn_eq_singleton hmore]
    rfl
  · generalize afterLast (· == sep) text = last at htext hlast hmore ⊢
    subst htext
    rw [List.append_assoc, List.cons_append, List.splitOn_append_cons_of_beq front _ hc,
      List.splitOn_append_cons_of_beq front _ hc, List.splitOn_eq_singleton hlast,
      List.splitOn_eq_singleton hmore, List.dropLast_concat]

/-- A separator at the end closes the last piece and opens an empty one. -/
theorem splitOn_singleton_concat (sep : Char) (text : List Char) :
    splitOn [sep] (text ++ [sep]) = splitOn [sep] text ++ [[]] := by
  simp only [splitOn_singleton, List.splitOn_append_cons_self, List.splitOn_nil]

/-! ### Blanks around a text -/

/-- Blanks in front of a text without blanks are taken off, and nothing else is. -/
theorem trim_append {blanks text : List Char} (hblanks : ∀ c ∈ blanks, isBlank c = true)
    (htext : ∀ c ∈ text, isBlank c = false) : trim (blanks ++ text) = text := by
  have htrim := trim_between hblanks htext (List.forall_mem_nil _)
  rwa [List.append_nil] at htrim

/-- A text in which only the first character can be blank consists of blanks and what trimming
leaves of it, which has none. -/
theorem exists_blanks_append_trim {text : List Char}
    (h : ∀ c ∈ text.tail, isBlank c = false) :
    ∃ blanks, text = blanks ++ trim text ∧ (∀ c ∈ blanks, isBlank c = true) ∧
      ∀ c ∈ trim text, isBlank c = false := by
  -- Once the blanks are known, what is left of the text is known as well.
  suffices hsplit : ∃ blanks rest, text = blanks ++ rest ∧ (∀ c ∈ blanks, isBlank c = true) ∧
      ∀ c ∈ rest, isBlank c = false by
    obtain ⟨blanks, rest, rfl, hblanks, hrest⟩ := hsplit
    refine ⟨blanks, ?_, hblanks, ?_⟩ <;> rw [trim_append hblanks hrest]
    exact hrest
  cases text with
  | nil => exact ⟨[], [], rfl, by simp, by simp⟩
  | cons c rest =>
    cases hc : isBlank c with
    | true => exact ⟨[c], rest, rfl, by simp [hc], h⟩
    | false => exact ⟨[], c :: rest, rfl, by simp, by simpa [hc] using h⟩

end SqlMapper.Chars

import Mathlib.Data.List.Basic
import SqlMapper.Proofs.Log.Template

/-!
# The parts of a template

Read from the left, a template is a row of quoted runs and of single characters outside quotes. A
run reaches from a quote to the next quote of its kind; the last run may lack that quote. There is
one such row for each template, and filling goes through it part by part: the question marks outside
quotes take their values, all else stays.

## Main definitions

* `Template.Part`: a character outside quotes or a quoted run.
* `Template.Divides`: the parts of a template, in order.
* `Template.marks`: the number of question marks outside quotes.

## Main statements

* `Template.exists_divides`, `Template.Divides.unique`: every template has its parts, in one way.
* `Template.Divides.substitute_eq`: substitution by the place of each part.
* `Template.fill_eq_parts`: filling by the place of each part.
-/

namespace SqlMapper.Template

/-- A part of a template: a character outside quotes, a run between two quotes of one kind, or a run
behind a quote that is never closed. -/
inductive Part where
  | plain (c : Char) (outside : isQuote c = false)
  | quoted (quote : Char) (inner : List Char) (opens : isQuote quote = true) (inside : quote ∉ inner)
  | unclosed (quote : Char) (inner : List Char) (opens : isQuote quote = true)
      (inside : quote ∉ inner)

namespace Part

/-- The characters of a part, quotes included. -/
def chars : Part → List Char
  | plain c _ => [c]
  | quoted quote inner _ _ => quote :: inner ++ [quote]
  | unclosed quote inner _ _ => quote :: inner

/-- Whether a part stands for a value. -/
def isMark : Part → Bool
  | plain c _ => c == '?'
  | _ => false

/-- Whether a part begins with a quote. -/
def isRun : Part → Bool
  | plain .. => false
  | _ => true

/-- Whether a part can only be the last one. -/
def isUnclosed : Part → Bool
  | unclosed .. => true
  | _ => false

/-- The characters of a part, or those of the value that is put in for it. -/
def filled (value : Option Literal) (part : Part) : List Char :=
  if part.isMark then value.elim part.chars Literal.chars else part.chars

theorem chars_ne_nil (part : Part) : part.chars ≠ [] := by
  cases part <;> simp [chars]

/-- A text is cut at the first occurrence of a mark in one way. -/
theorem eq_of_append_cons_eq {mark : Char} {front front' rest rest' : List Char}
    (hfront : mark ∉ front) (hfront' : mark ∉ front')
    (h : front ++ mark :: rest = front' ++ mark :: rest') : front = front' ∧ rest = rest' := by
  rcases List.append_eq_append_iff.1 h with ⟨more, rfl, hmore⟩ | ⟨more, rfl, hmore⟩
  all_goals
    rw [List.cons_eq_append_iff] at hmore
    rcases hmore with ⟨rfl, hrest⟩ | ⟨more, rfl, -⟩
  · simpa using hrest.symm
  · simp at hfront'
  · simpa using hrest
  · simp at hfront

/-- The first character of a part tells whether it is a run. -/
theorem isQuote_of_chars_append {part : Part} {rest tail : List Char} {c : Char}
    (h : part.chars ++ rest = c :: tail) : isQuote c = part.isRun := by
  cases part with
  | plain d outside =>
    obtain ⟨rfl, -⟩ : d = c ∧ rest = tail := by simpa [chars] using h
    exact outside
  | quoted quote inner opens _ =>
    obtain ⟨rfl, -⟩ : quote = c ∧ _ := by simpa [chars] using h
    exact opens
  | unclosed quote inner opens _ =>
    obtain ⟨rfl, -⟩ : quote = c ∧ inner ++ rest = tail := by simpa [chars] using h
    exact opens

/-- The first part of a text, and what follows it, can be read off the text. -/
theorem eq_of_append_eq {first second : Part} {rest rest' : List Char}
    (hfirst : first.isUnclosed = true → rest = [])
    (hsecond : second.isUnclosed = true → rest' = [])
    (h : first.chars ++ rest = second.chars ++ rest') : first = second ∧ rest = rest' := by
  have hrun : first.isRun = second.isRun := by
    obtain ⟨c, tail, htail⟩ := List.exists_cons_of_ne_nil
      (List.append_ne_nil_of_left_ne_nil first.chars_ne_nil rest)
    rw [← isQuote_of_chars_append htail, isQuote_of_chars_append (h.symm.trans htail)]
  cases first with
  | plain c _ =>
    cases second with
    | plain d _ =>
      obtain ⟨rfl, hrest⟩ : c = d ∧ rest = rest' := by simpa [chars] using h
      exact ⟨rfl, hrest⟩
    | quoted => cases hrun
    | unclosed => cases hrun
  | quoted quote inner _ inside =>
    cases second with
    | plain => cases hrun
    | quoted quote' inner' _ inside' =>
      simp only [chars, List.cons_append, List.append_assoc, List.nil_append,
        List.cons.injEq] at h
      obtain ⟨rfl, hinner⟩ := h
      obtain ⟨rfl, hrest⟩ := eq_of_append_cons_eq inside inside' hinner
      exact ⟨rfl, hrest⟩
    | unclosed quote' inner' _ inside' =>
      -- The run on the left is closed by a quote that the run on the right would have inside.
      simp only [chars, hsecond rfl, List.cons_append, List.append_assoc, List.nil_append,
        List.append_nil, List.cons.injEq] at h
      obtain ⟨rfl, rfl⟩ := h
      simp at inside'
  | unclosed quote inner _ inside =>
    cases second with
    | plain => cases hrun
    | quoted quote' inner' _ _ =>
      simp only [chars, hfirst rfl, List.cons_append, List.append_assoc, List.nil_append,
        List.append_nil, List.cons.injEq] at h
      obtain ⟨rfl, rfl⟩ := h
      simp at inside
    | unclosed quote' inner' _ _ =>
      simp only [chars, hfirst rfl, hsecond rfl, List.append_nil, List.cons.injEq] at h
      obtain ⟨rfl, rfl⟩ := h
      exact ⟨rfl, (hfirst rfl).trans (hsecond rfl).symm⟩

end Part

/-- The parts of a text, in order: they make up the text, and only the last one can be unclosed. -/
structure Divides (parts : List Part) (text : List Char) : Prop where
  flatMap_chars : parts.flatMap Part.chars = text
  isUnclosed_dropLast : ∀ part ∈ parts.dropLast, part.isUnclosed = false

/-- The number of question marks outside quotes. -/
def marks (parts : List Part) : Nat :=
  parts.countP Part.isMark

theorem divides_nil : Divides [] [] :=
  ⟨rfl, by simp⟩

theorem divides_cons_iff {part : Part} {parts : List Part} {text : List Char} :
    Divides (part :: parts) text ↔
      ∃ rest, text = part.chars ++ rest ∧ (part.isUnclosed = true → rest = []) ∧
        Divides parts rest := by
  constructor
  · rintro ⟨hchars, hclosed⟩
    refine ⟨parts.flatMap Part.chars, hchars.symm, ?_, rfl, ?_⟩
    · intro hunclosed
      cases parts with
      | nil => rfl
      | cons next parts =>
        rw [hclosed part (by simp)] at hunclosed
        cases hunclosed
    · intro other hother
      cases parts with
      | nil => simp at hother
      | cons next parts => exact hclosed other (by simpa using .inr hother)
  · rintro ⟨rest, rfl, hlast, hparts⟩
    refine ⟨by rw [List.flatMap_cons, hparts.flatMap_chars], ?_⟩
    intro other hother
    cases parts with
    | nil => simp at hother
    | cons next parts =>
      rw [List.dropLast_cons_cons, List.mem_cons] at hother
      rcases hother with rfl | hother
      · rw [← Bool.not_eq_true]
        intro hunclosed
        have hempty := hparts.flatMap_chars.trans (hlast hunclosed)
        rw [List.flatMap_cons, List.append_eq_nil_iff] at hempty
        exact next.chars_ne_nil hempty.1
      · exact hparts.isUnclosed_dropLast other hother

theorem exists_divides (text : List Char) : ∃ parts, Divides parts text := by
  -- By the length of the text: behind a run the rest is shorter by more than one character.
  induction hlength : text.length using Nat.strong_induction_on generalizing text with
  | _ n ih =>
    subst hlength
    match text with
    | [] => exact ⟨[], divides_nil⟩
    | c :: text =>
      cases hquote : isQuote c with
      | false =>
        obtain ⟨parts, hparts⟩ := ih text.length (by simp) text rfl
        have hlast : (Part.plain c hquote).isUnclosed = true → text = [] := nofun
        exact ⟨_, divides_cons_iff.2 ⟨text, rfl, hlast, hparts⟩⟩
      | true =>
        by_cases hmem : c ∈ text
        · obtain ⟨inner, rest, rfl, hinner⟩ := List.eq_append_cons_of_mem hmem
          obtain ⟨parts, hparts⟩ := ih rest.length (by simp; omega) rest rfl
          have hchars : c :: (inner ++ c :: rest) =
              (Part.quoted c inner hquote hinner).chars ++ rest := by
            simp [Part.chars]
          exact ⟨_, divides_cons_iff.2 ⟨rest, hchars, nofun, hparts⟩⟩
        · have hchars : c :: text = (Part.unclosed c text hquote hmem).chars ++ [] := by
            simp [Part.chars]
          exact ⟨_, divides_cons_iff.2 ⟨[], hchars, fun _ => rfl, divides_nil⟩⟩

theorem Divides.unique {first second : List Part} {text : List Char} (hfirst : Divides first text)
    (hsecond : Divides second text) : first = second := by
  induction first generalizing second text with
  | nil =>
    cases second with
    | nil => rfl
    | cons part second =>
      obtain ⟨rest, htext, -⟩ := divides_cons_iff.1 hsecond
      have hnil : [] = text := hfirst.flatMap_chars
      rw [← hnil, List.nil_eq_append_iff] at htext
      exact absurd htext.1 part.chars_ne_nil
  | cons part first ih =>
    obtain ⟨rest, rfl, hlast, hparts⟩ := divides_cons_iff.1 hfirst
    cases second with
    | nil =>
      have hnil : [] = part.chars ++ rest := hsecond.flatMap_chars
      rw [List.nil_eq_append_iff] at hnil
      exact absurd hnil.1 part.chars_ne_nil
    | cons part' second =>
      obtain ⟨rest', htext, hlast', hparts'⟩ := divides_cons_iff.1 hsecond
      obtain ⟨rfl, rfl⟩ := Part.eq_of_append_eq hlast hlast' htext
      rw [ih hparts hparts']

/-! ### Substitution, part by part -/

theorem substitute_within {quote : Char} {inner : List Char} (h : quote ∉ inner)
    (values : List Literal) (rest : List Char) :
    substitute (some quote) values (inner ++ rest) =
      inner ++ substitute (some quote) values rest := by
  induction inner with
  | nil => rfl
  | cons c inner ih =>
    obtain ⟨hc, hinner⟩ : quote ≠ c ∧ quote ∉ inner := by simpa using h
    rw [List.cons_append, substitute, if_neg (by simpa using hc.symm), ih hinner, List.cons_append]

/-- The values that are left behind a part. -/
def Part.pass (part : Part) (values : List Literal) : List Literal :=
  if part.isMark then values.tail else values

/-- Substitution passes one part, and uses a value up for a question mark only. -/
theorem substitute_part (part : Part) (values : List Literal) {rest : List Char}
    (hlast : part.isUnclosed = true → rest = []) :
    substitute none values (part.chars ++ rest) =
      part.filled values.head? ++ substitute none (part.pass values) rest := by
  cases part with
  | plain c outside =>
    by_cases hmark : c = '?'
    · subst hmark
      cases values with
      | nil => exact substitute_plain outside (.inr rfl) rest
      | cons value values => rfl
    · rw [Part.chars, List.singleton_append, substitute_plain outside (.inl hmark)]
      simp [Part.filled, Part.pass, Part.isMark, Part.chars, hmark]
  | quoted quote inner opens inside =>
    have hclose : substitute (some quote) values (quote :: rest) =
        quote :: substitute none values rest := by
      simp [substitute]
    rw [Part.chars, List.append_assoc, List.cons_append, substitute_quote opens,
      List.singleton_append, substitute_within inside, hclose]
    simp [Part.filled, Part.pass, Part.isMark, Part.chars]
  | unclosed quote inner opens inside =>
    have hinner := substitute_within inside values []
    rw [List.append_nil] at hinner
    rw [hlast rfl, List.append_nil, Part.chars, substitute_quote opens, hinner]
    simp [Part.filled, Part.isMark, Part.chars, substitute]

/-- The value for a part is the one behind as many values as there are question marks before it. -/
theorem getElem?_marks_cons (part : Part) (parts : List Part) (values : List Literal) :
    values[marks (part :: parts)]? = (part.pass values)[marks parts]? := by
  cases hmark : part.isMark with
  | true => simp [marks, Part.pass, hmark]
  | false => simp [marks, Part.pass, hmark]

theorem Divides.substitute_eq {parts : List Part} {text : List Char} (h : Divides parts text)
    (values : List Literal) :
    substitute none values text =
      (parts.mapIdx fun k part => part.filled values[marks (parts.take k)]?).flatten := by
  induction parts generalizing text values with
  | nil =>
    have hnil : [] = text := h.flatMap_chars
    rw [← hnil]
    rfl
  | cons part parts ih =>
    obtain ⟨rest, rfl, hlast, hparts⟩ := divides_cons_iff.1 h
    rw [substitute_part part values hlast, ih hparts, List.mapIdx_cons, List.flatten_cons]
    simp only [List.take_zero, List.take_succ_cons, getElem?_marks_cons]
    simp [marks, List.head?_eq_getElem?]

/-- Before a question mark there are fewer of them than in the whole template. -/
theorem marks_take_lt {parts : List Part} {k : Nat} (hk : k < parts.length)
    (hmark : parts[k].isMark = true) : marks (parts.take k) < marks parts := by
  have hnext : marks (parts.take (k + 1)) = marks (parts.take k) + 1 := by
    rw [List.take_succ_eq_append_getElem hk, marks, List.countP_append]
    simp [marks, hmark]
  have hle : marks (parts.take (k + 1)) ≤ marks parts :=
    (List.take_sublist (k + 1) parts).countP_le
  omega

/-- Values for which there is no question mark contribute nothing. -/
theorem mapIdx_filled_append (parts : List Part) {values : List Literal}
    (h : marks parts ≤ values.length) (surplus : List Literal) :
    (parts.mapIdx fun k part => part.filled (values ++ surplus)[marks (parts.take k)]?) =
      parts.mapIdx fun k part => part.filled values[marks (parts.take k)]? := by
  rw [List.mapIdx_eq_mapIdx_iff]
  intro k hk
  cases hmark : parts[k].isMark with
  | false => simp [Part.filled, hmark]
  | true =>
    have hlt := marks_take_lt hk hmark
    rw [List.getElem?_append_left (by omega)]

/-- Filling puts values in for question marks outside quotes and changes nothing else. A template is
divided into parts in exactly one way; the `i`-th of its question marks outside quotes is written as
the `i`-th value if there is one, and every other part as it stands. Values beyond the last question
mark are not used. -/
theorem fill_eq_parts {template : String} (hblank : Text.isBlank template = false)
    {values : List Literal} (hne : values ≠ []) :
    ∃ parts, Divides parts template.toList ∧
      (∀ other, Divides other template.toList → other = parts) ∧
      (fill template values).toList =
        (parts.mapIdx fun k part => part.filled values[marks (parts.take k)]?).flatten ∧
      (marks parts ≤ values.length →
        ∀ surplus, fill template (values ++ surplus) = fill template values) := by
  obtain ⟨parts, hparts⟩ := exists_divides template.toList
  refine ⟨parts, hparts, fun other hother => hother.unique hparts, ?_, ?_⟩
  · rw [fill_of_not_blank hblank hne, String.toList_ofList, hparts.substitute_eq]
  · intro henough surplus
    have hall : values ++ surplus ≠ [] := List.append_ne_nil_of_left_ne_nil hne surplus
    rw [fill_of_not_blank hblank hall, fill_of_not_blank hblank hne, hparts.substitute_eq,
      hparts.substitute_eq, mapIdx_filled_append parts henough]

/-- Of two question marks outside quotes the first has a value. The quotes of the first run are
double ones, so that the single one in it closes nothing; the last run is never closed. -/
theorem fill_eq_parts_unclosed :
    Text.isBlank "?\"'?\"?'?" = false ∧
      ∃ parts, Divides parts "?\"'?\"?'?".toList ∧ marks parts = 2 ∧
        fill "?\"'?\"?'?" [.integer 7] = "7\"'?\"?'?" := by
  have hblank : Text.isBlank "?\"'?\"?'?" = false := by decide
  have hvalues : [Literal.integer 7] ≠ [] := by decide
  have hdivides : Divides [.plain '?' (by decide), .quoted '"' ['\'', '?'] (by decide) (by decide),
      .plain '?' (by decide), .unclosed '\'' ['?'] (by decide) (by decide)]
      "?\"'?\"?'?".toList :=
    ⟨by decide, by decide⟩
  obtain ⟨parts, hparts, hunique, hfill, -⟩ := fill_eq_parts hblank hvalues
  obtain rfl := hunique _ hdivides
  refine ⟨hblank, _, hparts, by decide, ?_⟩
  rw [← String.toList_inj, hfill]
  decide

end SqlMapper.Template

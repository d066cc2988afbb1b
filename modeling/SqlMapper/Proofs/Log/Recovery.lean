import SqlMapper.Proofs.Chars.Blank
import SqlMapper.Proofs.Log.Entry

/-!
# What an entry gives back

An entry is read from its first word on. Whatever a value has in front of that, a sign or a percent
mark, is lost, and so is all of it up to its last newline. Below, the values that are read as what
they denote are told apart from those that are not, for every type that can stand in parentheses.

## Main definitions

* `Log.IsNumeral`: a number with its sign, between blanks.
* `Log.SignFree`: a number that its sign does not change.

## Main statements

* `Log.findTyped?_skip`, `Log.findTyped?_newline`: what reading passes over.
* `Log.findTyped?_eq_some`: where a value that has been read stands.
* `Log.startsWithWord_of_typedValue?`: the values that are given back whole.
* `Log.literal_written_recovered`: the values that are read as what they denote.
-/

namespace SqlMapper.Log

/-! ### What reading passes over -/

section

variable {front text value : List Char}

theorem findTyped?_skip (hfront : ∀ c ∈ front, Chars.isWord c = false) (text : List Char) :
    findTyped? false (front ++ text) = findTyped? false text := by
  induction front with
  | nil => rfl
  | cons c front ih =>
    have hc : Chars.isWord c = false := hfront c List.mem_cons_self
    have hrest := ih fun d hd => hfront d (List.mem_cons_of_mem c hd)
    rw [List.cons_append, findTyped?, hc]
    exact hrest

theorem findTyped?_eq_none (inWord : Bool) (h : '(' ∉ text) : findTyped? inWord text = none := by
  induction text generalizing inWord with
  | nil => rfl
  | cons c text ih =>
    have hrest := ih (Chars.isWord c) fun hmem => h (List.mem_cons_of_mem c hmem)
    simp [findTyped?, valueAndType?_eq_none h, hrest]

theorem valueAndType?_newline (h : '(' ∉ front) (text : List Char) :
    valueAndType? (front ++ '\n' :: text) = none := by
  induction front with
  | nil => simp [valueAndType?]
  | cons c front ih =>
    rw [List.mem_cons, not_or] at h
    simp [valueAndType?, ih h.2, Ne.symm h.1]

/-- A line without a parenthesis that opens is passed over. -/
theorem findTyped?_newline (inWord : Bool) (h : '(' ∉ front) (text : List Char) :
    findTyped? inWord (front ++ '\n' :: text) = findTyped? false text := by
  induction front generalizing inWord with
  | nil =>
    have hword : Chars.isWord '\n' = false := by decide +kernel
    simp [findTyped?, valueAndType?, hword]
  | cons c front ih =>
    have hrest := ih (Chars.isWord c) fun hmem => h (List.mem_cons_of_mem c hmem)
    have hhere : valueAndType? (c :: (front ++ '\n' :: text)) = none := valueAndType?_newline h text
    simp [findTyped?, hhere, hrest]

/-! ### Where a value stands -/

theorem valueAndType?_eq_some {name : List Char} (h : valueAndType? text = some (value, name)) :
    '\n' ∉ value ∧ ∃ behind, text = value ++ '(' :: behind := by
  fun_induction valueAndType? text generalizing value with
  | case1 => cases h
  | case2 => cases h
  | case3 c text hc value' name' hrest ih =>
    obtain ⟨rfl, rfl⟩ := Prod.mk.inj (Option.some.inj h)
    obtain ⟨hline, behind, htext⟩ := ih hrest
    refine ⟨?_, behind, by rw [htext, List.cons_append]⟩
    rw [List.mem_cons, not_or]
    exact ⟨Ne.symm hc, hline⟩
  | case4 text hc hrest =>
    obtain ⟨_, -, hfound⟩ := Option.map_eq_some_iff.1 h
    obtain rfl := (Prod.mk.inj hfound).1
    exact ⟨List.not_mem_nil, text, rfl⟩
  | case5 => cases h

/-- A value stands on one line in front of a parenthesis, and at a boundary of a word if it stands
at the very beginning. -/
theorem findTyped?_eq_some {inWord : Bool} {name : List Char}
    (h : findTyped? inWord text = some (value, name)) :
    '\n' ∉ value ∧ ∃ front behind, text = front ++ (value ++ '(' :: behind) ∧
      (front = [] → ∃ c ∈ text.head?, Chars.isWord c ≠ inWord) := by
  fun_induction findTyped? inWord text with
  | case1 => cases h
  | case2 inWord c text here found hhere =>
    obtain rfl := Option.some.inj h
    have hboundary : (Chars.isWord c != inWord) = true := by
      by_contra hno
      simp [here, hno] at hhere
    have hread : valueAndType? (c :: text) = some (value, name) := by
      simpa [here, hboundary] using hhere
    obtain ⟨hline, behind, htext⟩ := valueAndType?_eq_some hread
    exact ⟨hline, [], behind, htext, fun _ => ⟨c, rfl, bne_iff_ne.1 hboundary⟩⟩
  | case3 inWord c text here hhere ih =>
    obtain ⟨hline, front, behind, htext, -⟩ := ih h
    exact ⟨hline, c :: front, behind, by rw [htext, List.cons_append], by simp⟩

/-- A value followed by the only parenthesis that opens behind it stands at the beginning. -/
theorem eq_nil_of_append_eq {behind tail : List Char}
    (h : value ++ '(' :: tail = front ++ (value ++ '(' :: behind)) (htail : '(' ∉ tail) :
    front = [] := by
  rw [← List.append_assoc, List.append_eq_append_iff] at h
  rcases h with ⟨more, hvalue, hmore⟩ | ⟨more, hvalue, -⟩
  · have hlength := congrArg List.length hvalue
    simp only [List.length_append] at hlength
    cases more with
    | nil => exact List.length_eq_zero_iff.1 (by simpa using hlength)
    | cons c more =>
      rw [List.cons_append, List.cons.injEq] at hmore
      exact absurd (hmore.2 ▸ List.mem_append_right more List.mem_cons_self) htail
  · have hlength := congrArg List.length hvalue
    simp only [List.length_append] at hlength
    exact List.length_eq_zero_iff.1 (by omega)

end

/-! ### Values that are given back whole -/

variable {value typeName : String}

theorem toList_written (value typeName : String) : (written value typeName).toList =
    value.toList ++ '(' :: (typeName.toList ++ [')']) := by
  simp [written]

/-- Only a value that begins with a word and has no newline is given back whole. -/
theorem startsWithWord_of_typedValue? {name : String} (h : PlainType typeName.toList)
    (hread : typedValue? (written value typeName) = some (value, name)) :
    (∃ c ∈ value.toList.head?, Chars.isWord c = true) ∧ '\n' ∉ value.toList := by
  obtain ⟨⟨found, foundName⟩, hfound, hpair⟩ := Option.map_eq_some_iff.1 hread
  have hvalue : found = value.toList := by
    rw [← (Prod.mk.inj hpair).1, String.toList_ofList]
  subst hvalue
  obtain ⟨hline, front, behind, htext, hstart⟩ := findTyped?_eq_some hfound
  have htail : '(' ∉ typeName.toList ++ [')'] := by simp [h.noOpening]
  have hfront : front = [] := eq_nil_of_append_eq (toList_written value typeName ▸ htext) htail
  refine ⟨?_, hline⟩
  obtain ⟨c, hc, hword⟩ := hstart hfront
  rw [toList_written] at hc
  cases hchars : value.toList with
  | nil =>
    obtain rfl : '(' = c := by simpa [hchars] using hc
    exact absurd (by decide +kernel) hword
  | cons d rest =>
    obtain rfl : d = c := by simpa [hchars] using hc
    exact ⟨d, rfl, by simpa using hword⟩

/-! ### Values that are read as what they denote -/

/-- The value is a number with its sign, between blanks. -/
structure IsNumeral (value front sign digits back : List Char) : Prop where
  value_eq : value = front ++ (sign ++ digits) ++ back
  front_blank : ∀ c ∈ front, Chars.isBlank c = true
  sign_eq : sign = [] ∨ sign = ['+'] ∨ sign = ['-']
  digits_ne_nil : digits ≠ []
  isDigit : ∀ c ∈ digits, c.isDigit = true
  back_blank : ∀ c ∈ back, Chars.isBlank c = true

/-- The value is a number of 64 bits that its sign does not change, and no newline follows it. -/
def SignFree (value : List Char) : Prop :=
  ∃ front sign digits back, IsNumeral value front sign digits back ∧ '\n' ∉ back ∧
    decimal digits < 2 ^ 63 ∧ (sign = ['-'] → decimal digits = 0)

/-- Digits alone spell the number that they stand for. -/
theorem spells_digits_iff {digits : List Char} (hne : digits ≠ [])
    (hdigits : ∀ c ∈ digits, c.isDigit = true) {n : Int} :
    Spells digits n ↔ n = decimal digits ∧ decimal digits < 2 ^ 63 := by
  constructor
  · rintro ⟨sign, rest, rfl, -, -, hsign, hlow, hhigh⟩
    have hminus : '-' ∉ sign ∧ '+' ∉ sign := by
      constructor <;> intro hmem <;> cases hdigits _ (List.mem_append_left rest hmem)
    rcases hsign with ⟨rfl, -⟩ | ⟨rfl | rfl, rfl⟩
    · simp at hminus
    · exact ⟨rfl, by simpa using mod_cast hhigh⟩
    · simp at hminus
  · rintro ⟨rfl, hhigh⟩
    exact ⟨[], digits, rfl, hne, hdigits, .inr ⟨.inl rfl, rfl⟩, by omega, mod_cast hhigh⟩

theorem trim_written_ne (h : PlainType typeName.toList) :
    Text.trim (written value typeName) ≠ value := by
  intro htrim
  obtain ⟨front, back, hentry, hfront, hback⟩ :=
    Chars.exists_trim_between (written value typeName).toList
  -- Blanks hold no parentheses, so trimming cannot take the one of the type.
  have hblanks : ∀ blanks : List Char, (∀ c ∈ blanks, Chars.isBlank c = true) →
      blanks.count '(' = 0 := by
    intro blanks hblanks
    rw [List.count_eq_zero]
    intro hmem
    exact absurd (hblanks '(' hmem) (by decide)
  have hcount := congrArg (List.count '(') hentry
  rw [← Text.toList_trim, htrim, toList_written, List.count_append, List.count_append,
    List.count_append, hblanks front hfront, hblanks back hback, List.count_cons_self,
    List.count_append, List.count_eq_zero.2 h.noOpening] at hcount
  omega

theorem typedValue?_of_literal_eq {l : Literal} (h : PlainType typeName.toList)
    (hl : l = .text value ∨ l = .raw value) (hliteral : literal (written value typeName) = l) :
    ∃ name, typedValue? (written value typeName) = some (value, name) := by
  unfold literal at hliteral
  split at hliteral
  · next found name hfound =>
    refine ⟨name, hfound ▸ ?_⟩
    unfold literalOf at hliteral
    split at hliteral
    · split at hliteral <;> rcases hl with rfl | rfl <;> cases hliteral
      rfl
    · rcases hl with rfl | rfl <;> cases hliteral
      rfl
  · rcases hl with rfl | rfl
    · cases hliteral
    · exact absurd (Literal.raw.inj hliteral) (trim_written_ne h)

section

variable {front sign digits back : List Char}

/-- What stands in front of the first word of a value is lost. -/
theorem literal_written_of_front {rest : List Char} (h : PlainType typeName.toList)
    (hvalue : value.toList = front ++ rest) (hfront : ∀ c ∈ front, Chars.isWord c = false)
    (hrest : ∃ c ∈ rest.head?, Chars.isWord c = true) (hline : '\n' ∉ rest) :
    literal (written value typeName) = literalOf (String.ofList rest) typeName := by
  have hskip : typedValue? (written value typeName) =
      typedValue? (written (String.ofList rest) typeName) := by
    rw [typedValue?, typedValue?, toList_written, toList_written, hvalue, List.append_assoc,
      findTyped?_skip hfront, String.toList_ofList]
  rw [literal, hskip, typedValue?_written (by simpa using hrest) (by simpa using hline) h]

/-- Nothing is read if no type stands on the lines of a value but the last, and no word on that. -/
theorem literal_written_of_newline {lines : List Char} (h : PlainType typeName.toList)
    (hvalue : value.toList = lines ++ '\n' :: back) (hlines : '(' ∉ lines)
    (hback : ∀ c ∈ back, Chars.isWord c = false) :
    literal (written value typeName) = .raw (Text.trim (written value typeName)) := by
  have hskip : ∀ c ∈ back ++ ['('], Chars.isWord c = false := by
    intro c hc
    rcases List.mem_append.1 hc with hc | hc
    · exact hback c hc
    · rw [List.mem_singleton.1 hc]
      decide +kernel
  have hnone : typedValue? (written value typeName) = none := by
    rw [typedValue?, toList_written, hvalue, List.append_assoc, List.cons_append,
      findTyped?_newline false hlines, List.append_cons, findTyped?_skip hskip,
      findTyped?_eq_none false (by simp [h.noOpening])]
    rfl
  rw [literal, hnone]

/-- A text that spells an integer is a number between blanks. A minus changes all numbers but zero. -/
theorem exists_isNumeral {text : List Char} {n : Int} (h : Spells (Chars.trim text) n) :
    ∃ front sign digits back, IsNumeral text front sign digits back ∧
      (n = decimal digits → sign = ['-'] → decimal digits = 0) := by
  obtain ⟨front, back, htext, hfront, hback⟩ := Chars.exists_trim_between text
  obtain ⟨sign, digits, htrim, hne, hdigits, hsign, -⟩ := h
  rw [htrim] at htext
  refine ⟨front, sign, digits, back, ⟨htext, hfront, ?_, hne, hdigits, hback⟩, ?_⟩
  · rcases hsign with ⟨rfl, -⟩ | ⟨rfl | rfl, -⟩ <;> simp
  · rintro hn rfl
    rcases hsign with ⟨-, hminus⟩ | ⟨hsign, -⟩
    · omega
    · simp at hsign

namespace IsNumeral

variable {text : List Char} (hnum : IsNumeral text front sign digits back)

include hnum

theorem isWord_sign : ∀ c ∈ sign, Chars.isWord c = false ∧ Chars.isBlank c = false ∧ c ≠ '(' := by
  have hplus : Chars.isWord '+' = false := by decide +kernel
  have hminus : Chars.isWord '-' = false := by decide +kernel
  rcases hnum.sign_eq with rfl | rfl | rfl
  · simp
  · rw [List.forall_mem_singleton]
    exact ⟨hplus, by decide, by decide⟩
  · rw [List.forall_mem_singleton]
    exact ⟨hminus, by decide, by decide⟩

theorem isBlank_digits : ∀ c ∈ digits, Chars.isBlank c = false := fun c hc =>
  Chars.isBlank_of_isDigit (hnum.isDigit c hc)

theorem trim_eq : Chars.trim text = sign ++ digits := by
  have hsolid : ∀ c ∈ sign ++ digits, Chars.isBlank c = false := by
    intro c hc
    rcases List.mem_append.1 hc with hc | hc
    · exact (hnum.isWord_sign c hc).2.1
    · exact hnum.isBlank_digits c hc
  rw [hnum.value_eq]
  exact Chars.trim_between hnum.front_blank hsolid hnum.back_blank

theorem literalOf_digits (htype : typeName ∈ integerTypes) {n : Int} :
    literalOf (String.ofList (digits ++ back)) typeName = .integer n ↔
      n = decimal digits ∧ decimal digits < 2 ^ 63 := by
  have htrim : Chars.trim ([] ++ digits ++ back) = digits :=
    Chars.trim_between (List.forall_mem_nil _) hnum.isBlank_digits hnum.back_blank
  rw [List.nil_append] at htrim
  rw [← spells_digits_iff hnum.digits_ne_nil hnum.isDigit, ← integer?_eq_some_iff, literalOf,
    if_pos (List.contains_iff_mem.2 htype), String.toList_ofList, htrim]
  cases integer? digits <;> simp

end IsNumeral

/-- A number is read from its digits on, and only if no newline follows it. -/
theorem literal_written_numeral (h : PlainType typeName.toList) (htype : typeName ∈ integerTypes)
    (hnum : IsNumeral value.toList front sign digits back) {n : Int} :
    literal (written value typeName) = .integer n ↔
      '\n' ∉ back ∧ n = decimal digits ∧ decimal digits < 2 ^ 63 := by
  have hvalue := hnum.value_eq
  by_cases hline : '\n' ∈ back
  · obtain ⟨ending, rest, rfl⟩ := List.append_of_mem hline
    have hsplit : value.toList = (front ++ sign ++ digits ++ ending) ++ '\n' :: rest := by
      simp [hvalue]
    have hlines : '(' ∉ front ++ sign ++ digits ++ ending := by
      simp only [List.mem_append, not_or]
      refine ⟨⟨⟨?_, ?_⟩, ?_⟩, ?_⟩ <;> intro hmem
      · cases hnum.front_blank _ hmem
      · exact (hnum.isWord_sign _ hmem).2.2 rfl
      · cases hnum.isDigit _ hmem
      · cases hnum.back_blank _ (List.mem_append_left _ hmem)
    have hwords : ∀ c ∈ rest, Chars.isWord c = false := fun c hc =>
      Chars.isWord_of_isBlank (hnum.back_blank c (by simp [hc]))
    rw [literal_written_of_newline h hsplit hlines hwords]
    simp
  · have hsplit : value.toList = (front ++ sign) ++ (digits ++ back) := by simp [hvalue]
    have hbefore : ∀ c ∈ front ++ sign, Chars.isWord c = false := by
      intro c hc
      rcases List.mem_append.1 hc with hc | hc
      · exact Chars.isWord_of_isBlank (hnum.front_blank c hc)
      · exact (hnum.isWord_sign c hc).1
    have hword : ∃ c ∈ (digits ++ back).head?, Chars.isWord c = true := by
      obtain ⟨c, rest, rfl⟩ := List.exists_cons_of_ne_nil hnum.digits_ne_nil
      exact ⟨c, rfl, Chars.isWord_of_isDigit (hnum.isDigit c List.mem_cons_self)⟩
    have hrest : '\n' ∉ digits ++ back := by
      rw [List.mem_append, not_or]
      exact ⟨fun hmem => (by cases hnum.isDigit _ hmem), hline⟩
    rw [literal_written_of_front h hsplit hbefore hword hrest, hnum.literalOf_digits htype]
    simp [hline]

end

theorem SignFree.denotes (h : PlainType typeName.toList) (htype : typeName ∈ integerTypes)
    (hfree : SignFree value.toList) :
    Denotes value typeName (literal (written value typeName)) := by
  obtain ⟨front, sign, digits, back, hnum, hline, hsmall, hminus⟩ := hfree
  rw [(literal_written_numeral h htype hnum).2 ⟨hline, rfl, hsmall⟩]
  refine .integer htype ⟨sign, digits, hnum.trim_eq, hnum.digits_ne_nil, hnum.isDigit, ?_,
    by omega, by omega⟩
  rcases hnum.sign_eq with rfl | rfl | rfl
  · exact .inr ⟨.inl rfl, rfl⟩
  · exact .inr ⟨.inr rfl, rfl⟩
  · have hzero := hminus rfl
    exact .inl ⟨rfl, by omega⟩

theorem signFree_of_spells {n : Int} (h : PlainType typeName.toList)
    (htype : typeName ∈ integerTypes) (hspells : Spells (Chars.trim value.toList) n)
    (hliteral : literal (written value typeName) = .integer n) : SignFree value.toList := by
  obtain ⟨front, sign, digits, back, hnum, hminus⟩ := exists_isNumeral hspells
  obtain ⟨hline, hn, hsmall⟩ := (literal_written_numeral h htype hnum).1 hliteral
  exact ⟨front, sign, digits, back, hnum, hline, hsmall, hminus hn⟩

/-- An entry gives its value back whole exactly if the value begins with a word and has no newline.
It is read as what value and type denote then, and otherwise only if the type is one of integers and
the value a number that its sign does not change: other texts lose what they begin with, and negative
numbers their sign. -/
theorem literal_written_recovered (h : PlainType typeName.toList) :
    (typedValue? (written value typeName) = some (value, typeName) ↔
      (∃ c ∈ value.toList.head?, Chars.isWord c = true) ∧ '\n' ∉ value.toList) ∧
    (Denotes value typeName (literal (written value typeName)) ↔
      ((∃ c ∈ value.toList.head?, Chars.isWord c = true) ∧ '\n' ∉ value.toList) ∨
        typeName ∈ integerTypes ∧ SignFree value.toList) := by
  have hwhole : (∃ c ∈ value.toList.head?, Chars.isWord c = true) ∧ '\n' ∉ value.toList →
      typedValue? (written value typeName) = some (value, typeName) :=
    fun ⟨hword, hline⟩ => typedValue?_written hword hline h
  refine ⟨⟨startsWithWord_of_typedValue? h, hwhole⟩, fun hdenotes => ?_, ?_⟩
  · generalize hliteral : literal (written value typeName) = l at hdenotes
    cases hdenotes with
    | text htype =>
      obtain ⟨name, hread⟩ := typedValue?_of_literal_eq h (.inl rfl) hliteral
      exact .inl (startsWithWord_of_typedValue? h hread)
    | raw htype hnone =>
      obtain ⟨name, hread⟩ := typedValue?_of_literal_eq h (.inr rfl) hliteral
      exact .inl (startsWithWord_of_typedValue? h hread)
    | integer htype hspells => exact .inr ⟨htype, signFree_of_spells h htype hspells hliteral⟩
  · rintro (hreadable | ⟨htype, hfree⟩)
    · rw [literal, hwhole hreadable]
      exact denotes_literalOf value typeName
    · exact hfree.denotes h htype

/-- The sign of a negative number is lost. -/
theorem literal_written_negative :
    PlainType "Integer".toList ∧ Spells "-5".toList (-5) ∧
      literal (written "-5" "Integer") = .integer 5 ∧
      ¬Denotes "-5" "Integer" (literal (written "-5" "Integer")) := by
  have hplain : PlainType "Integer".toList := by decide
  have hspells : Spells "-5".toList (-5) := integer?_eq_some_iff.1 (by decide)
  refine ⟨hplain, hspells, by decide +kernel, fun hdenotes => ?_⟩
  rcases (literal_written_recovered hplain).2.1 hdenotes with ⟨⟨c, hc, hword⟩, -⟩ | ⟨-, hfree⟩
  · obtain rfl : '-' = c := Option.some.inj hc
    exact absurd hword (by decide +kernel)
  · obtain ⟨front, sign, digits, back, hnum, -, -, hminus⟩ := hfree
    have htrim : ['-', '5'] = sign ++ digits := hnum.trim_eq
    rcases hnum.sign_eq with rfl | rfl | rfl
    · obtain rfl : ['-', '5'] = digits := htrim
      cases hnum.isDigit '-' List.mem_cons_self
    · simp at htrim
    · obtain rfl : ['5'] = digits := by simpa using htrim
      exact absurd (hminus rfl) (by decide)

end SqlMapper.Log

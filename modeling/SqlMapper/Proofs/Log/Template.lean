import Mathlib.Data.Nat.Digits.Defs
import SqlMapper.Log.Template
import SqlMapper.Proofs.Chars.Blank

/-!
# Filling a template in rounds

The written form of an integer or of a text is closed: reading on behind it, one stands outside
quotes as in front of it, and it has no question mark that counts. So what has been put into a
template does not disturb what is put in later, and it does not matter in how many rounds the values
come.

## Main definitions

* `Template.Closed`: a text that substitution passes over.

## Main statements

* `Template.closed_chars`: integers and texts are written closed, whatever quotes a text holds.
* `Template.substitute_substitute`: two rounds of substitution are one.
* `Template.fill_fill`: so are two rounds of filling.
-/

namespace SqlMapper

namespace Literal

theorem eq_minus_or_isDigit {n : Int} {c : Char} (h : c ∈ (integer n).chars) :
    c = '-' ∨ c.isDigit = true := by
  have hdigits : ∀ m : Nat, c ∈ Nat.toDigits 10 m → c.isDigit = true := fun m hm =>
    Nat.isDigit_of_mem_toDigits (by decide) (by decide) hm
  cases n with
  | ofNat m =>
    right
    apply hdigits m
    simpa [chars, Int.toString_eq_repr, Int.repr, Nat.repr] using h
  | negSucc m =>
    have hsplit : c = '-' ∨ c ∈ Nat.toDigits 10 m.succ := by
      simpa [chars, Int.toString_eq_repr, Int.repr, Nat.repr] using h
    exact hsplit.imp_right (hdigits m.succ)

theorem chars_integer_ne_nil (n : Int) : (integer n).chars ≠ [] := by
  cases n with
  | ofNat m => simp [chars, Int.toString_eq_repr, Int.repr, Nat.repr]
  | negSucc m => simp [chars, Int.toString_eq_repr, Int.repr, Nat.repr]

/-- Integers and texts are never written as blanks. -/
theorem isBlankText_chars {l : Literal} (hl : ∀ value, l ≠ raw value) :
    Chars.isBlankText l.chars = false := by
  cases l with
  | integer n =>
    obtain ⟨c, cs, hchars⟩ := List.exists_cons_of_ne_nil (chars_integer_ne_nil n)
    have hc : Chars.isBlank c = false := by
      rcases eq_minus_or_isDigit (n := n) (c := c) (by simp [hchars]) with rfl | hdigit
      · decide
      · exact Chars.isBlank_of_isDigit hdigit
    simp [Chars.isBlankText, hchars, hc]
  | text value => simp [Chars.isBlankText, chars, show Chars.isBlank '\'' = false by decide]
  | raw value => exact absurd rfl (hl value)

end Literal

namespace Template

open Literal

/-- Substitution outside quotes passes over the text and is outside quotes behind it. -/
def Closed (text : List Char) : Prop :=
  ∀ values rest, substitute none values (text ++ rest) = text ++ substitute none values rest

theorem substitute_quote {c : Char} (hquote : isQuote c = true) (values : List Literal)
    (text : List Char) :
    substitute none values (c :: text) = c :: substitute (some c) values text := by
  simp [substitute, hquote]

theorem substitute_plain {values : List Literal} {c : Char} (hquote : isQuote c = false)
    (hmark : c ≠ '?' ∨ values = []) (text : List Char) :
    substitute none values (c :: text) = c :: substitute none values text := by
  rw [substitute, hquote]
  · rfl
  · rintro value rest rfl rfl
    rcases hmark with hmark | hmark
    · exact hmark rfl
    · cases hmark

theorem closed_of_plain {text : List Char} (h : ∀ c ∈ text, isQuote c = false ∧ c ≠ '?') :
    Closed text := by
  intro values rest
  induction text with
  | nil => rfl
  | cons c text ih =>
    obtain ⟨hquote, hmark⟩ := h c List.mem_cons_self
    have hrest := ih fun d hd => h d (List.mem_cons_of_mem c hd)
    rw [List.cons_append, substitute_plain hquote (.inl hmark), hrest, List.cons_append]

/-- Within quotes a doubled quote closes and opens again, so that only the last one closes. -/
theorem substitute_doubleQuotes (values : List Literal) (text rest : List Char) :
    substitute (some '\'') values (doubleQuotes text ++ '\'' :: rest) =
      doubleQuotes text ++ '\'' :: substitute none values rest := by
  induction text with
  | nil => simp [doubleQuotes, substitute]
  | cons c text ih =>
    by_cases hc : c = '\''
    · subst hc
      simpa [doubleQuotes, substitute, isQuote] using ih
    · simpa [doubleQuotes, substitute, hc] using ih

theorem closed_chars {l : Literal} (hl : ∀ value, l ≠ raw value) : Closed l.chars := by
  cases l with
  | integer n =>
    apply closed_of_plain
    intro c hc
    rcases eq_minus_or_isDigit hc with rfl | hdigit
    · decide
    · constructor
      · rw [isQuote, Bool.or_eq_false_iff, beq_eq_false_iff_ne, beq_eq_false_iff_ne]
        constructor <;> rintro rfl <;> cases hdigit
      · rintro rfl
        cases hdigit
  | text value =>
    intro values rest
    have hinner := substitute_doubleQuotes values value.toList rest
    simpa [chars, substitute, isQuote] using hinner
  | raw value => exact absurd rfl (hl value)

theorem substitute_nil (quote : Option Char) (text : List Char) : substitute quote [] text = text := by
  induction text generalizing quote with
  | nil => cases quote <;> rfl
  | cons c text ih =>
    cases quote with
    | some quote => rw [substitute, ih]
    | none =>
      cases hquote : isQuote c with
      | true => rw [substitute_quote hquote, ih]
      | false => rw [substitute_plain hquote (.inr rfl), ih]

/-- A second round puts its values in where the first one had none left. -/
theorem substitute_substitute (quote : Option Char) {first : List Literal}
    (hfirst : ∀ value, raw value ∉ first) (second : List Literal) (text : List Char) :
    substitute quote second (substitute quote first text) =
      substitute quote (first ++ second) text := by
  fun_induction substitute quote first text with
  | case1 => simp [substitute]
  | case2 quote values c text ih => rw [substitute, substitute, ih hfirst]
  | case3 values c text hquote ih =>
    rw [substitute_quote hquote, substitute_quote hquote, ih hfirst]
  | case4 text value values hquote ih =>
    have hvalue : ∀ v, value ≠ raw v := fun v hv => hfirst v (hv ▸ List.mem_cons_self)
    have hvalues : ∀ v, raw v ∉ values := fun v hv => hfirst v (List.mem_cons_of_mem value hv)
    rw [closed_chars hvalue, ih hvalues, List.cons_append, substitute, if_neg hquote]
  | case5 values c text hquote hmark ih =>
    rcases values with _ | ⟨value, values⟩
    · simp [substitute_nil]
    · have hc : c ≠ '?' := fun hc => hmark value values hc rfl
      rw [Bool.not_eq_true] at hquote
      rw [substitute_plain hquote (.inl hc), List.cons_append, substitute_plain hquote (.inl hc),
        ih hfirst, List.cons_append]

theorem isBlankText_substitute (quote : Option Char) {values : List Literal}
    (hvalues : ∀ value, raw value ∉ values) (text : List Char) :
    Chars.isBlankText (substitute quote values text) = Chars.isBlankText text := by
  fun_induction substitute quote values text with
  | case1 => rfl
  | case2 quote values c text ih => exact congrArg (Chars.isBlank c && ·) (ih hvalues)
  | case3 values c text hquote ih => exact congrArg (Chars.isBlank c && ·) (ih hvalues)
  | case4 text value values hquote ih =>
    have hvalue := isBlankText_chars fun v hv => hvalues v (hv ▸ List.mem_cons_self)
    have hmark : Chars.isBlankText ('?' :: text) = false := rfl
    rw [hmark, Chars.isBlankText, List.all_append, ← Chars.isBlankText, hvalue, Bool.false_and]
  | case5 values c text hquote hmark ih => exact congrArg (Chars.isBlank c && ·) (ih hvalues)

theorem fill_of_not_blank {template : String} (hblank : Text.isBlank template = false)
    {values : List Literal} (hne : values ≠ []) :
    fill template values = String.ofList (substitute none values template.toList) := by
  simp [fill, hblank, hne]

/-- Filling in two rounds is filling at once, if the first round brings integers and texts only:
no quote or question mark of a value counts in the second round. -/
theorem fill_fill (template : String) {first second : List Literal} (hne : first ≠ [])
    (hfirst : ∀ value, raw value ∉ first) (hsecond : second ≠ []) :
    fill (fill template first) second = fill template (first ++ second) := by
  cases hblank : Text.isBlank template with
  | true => simp [fill, hblank, show Text.isBlank "" = true by decide]
  | false =>
    have hround : Text.isBlank (fill template first) = false := by
      rw [fill_of_not_blank hblank hne, Text.isBlank, String.toList_ofList,
        isBlankText_substitute none hfirst]
      exact hblank
    have hall : first ++ second ≠ [] := List.append_ne_nil_of_left_ne_nil hne second
    rw [fill_of_not_blank hround hsecond, fill_of_not_blank hblank hne,
      fill_of_not_blank hblank hall, String.toList_ofList, substitute_substitute none hfirst]

/-- Quotes of both kinds and a question mark in a text, beside quotes of the template. -/
theorem fill_fill_quotes :
    (∀ value, raw value ∉ [text "it's \"so\"?", integer (-7)]) ∧
      fill (fill "a=? '?'?\"?\" c=?" [text "it's \"so\"?", integer (-7)]) [raw "null"] =
        "a='it''s \"so\"?' '?'-7\"?\" c=null" := by
  have htyped : ∀ value, raw value ∉ [text "it's \"so\"?", integer (-7)] := by simp
  refine ⟨htyped, ?_⟩
  rw [fill_fill _ (by decide) htyped (by decide)]
  decide +kernel

end Template

end SqlMapper

import SqlMapper.Document.Caret
import SqlMapper.Proofs.Chars.Bytes
import SqlMapper.Proofs.Chars.Cut
import SqlMapper.Proofs.Document.Statements
import SqlMapper.Proofs.Span

/-!
# The text being typed

Which text stands for the one being typed at a caret. The text of a document is cut in at most two
places: at the caret, and where the value begins that the caret touches or else behind the last
blank or angle bracket. None of these cuts falls inside a character.

## Main definitions

* `Document.Unbroken`: a text without a blank and without an angle bracket.

## Main statements

* `Document.caretFragment?_of_touches`: the text being typed in the value of an attribute.
* `Document.caretFragment?_of_not_touches`: the text being typed elsewhere.
* `Document.caretFragment?_exact`: the text being typed, at every offset.
-/

namespace SqlMapper.Document

variable {d : Document}

/-- The text has no blank and no angle bracket. -/
def Unbroken (text : List Char) : Prop :=
  ∀ c ∈ text, Chars.isBlank c = false ∧ c ≠ '<' ∧ c ≠ '>'

theorem unbroken_iff {text : List Char} :
    Unbroken text ↔ ∀ c ∈ text, endsFragment c = false := by
  simp [Unbroken, endsFragment, and_assoc]

section Boundary

variable {before after : List Char} (htext : d.text.toList = before ++ after)

include htext

/-- In the value of an attribute the text being typed is all of the value before the caret. -/
theorem caretFragment?_of_touches
    (hstarts : ∀ span ∈ d.attributeSpans, Chars.IsBoundary d.text.toList span.start)
    (hapart : d.attributeSpans.Pairwise Span.Apart) {span : Span}
    (hspan : span ∈ d.attributeSpans) (htouches : span.touches (Chars.byteLength before) = true) :
    ∃ front fragment, before = front ++ fragment ∧ Chars.byteLength front = span.start ∧
      d.caretFragment? (Chars.byteLength before) = some (String.ofList fragment) := by
  -- The value begins before the caret, hence in the text before it.
  obtain ⟨front, back, hback, hfront⟩ := (hstarts span hspan).exists_append
  obtain ⟨fragment, rfl⟩ := Chars.exists_append_of_byteLength_le (hback.symm.trans htext)
    (hfront.trans_le (Span.touches_iff.1 htouches).1)
  refine ⟨front, fragment, rfl, hfront, ?_⟩
  have hfound : (d.attributeSpans.find? fun s =>
      s.touches (Chars.byteLength (front ++ fragment))) = some span :=
    Span.find?_touches hapart hspan htouches
  rw [caretFragment?, htext, Chars.splitAtByte?_append]
  simp only [Option.bind_eq_bind, Option.bind_some, hfound, ← hfront]
  rw [Chars.splitAtByte?_append]
  rfl

/-- Elsewhere the text being typed begins behind the last blank or angle bracket. -/
theorem caretFragment?_of_not_touches
    (hspans : ∀ span ∈ d.attributeSpans, ¬ span.touches (Chars.byteLength before) = true) :
    d.caretFragment? (Chars.byteLength before) =
      some (String.ofList (Chars.afterLast endsFragment before)) := by
  have hnone : (d.attributeSpans.find? fun s => s.touches (Chars.byteLength before)) = none :=
    List.find?_eq_none.2 hspans
  rw [caretFragment?, htext, Chars.splitAtByte?_append]
  simp only [Option.bind_eq_bind, Option.bind_some, hnone]

end Boundary

/-- Only past the end of the text and inside a character is no text being typed. -/
theorem caretFragment?_eq_none_iff
    (hstarts : ∀ span ∈ d.attributeSpans, Chars.IsBoundary d.text.toList span.start)
    (hapart : d.attributeSpans.Pairwise Span.Apart) (offset : Nat) :
    d.caretFragment? offset = none ↔
      Text.byteLength d.text < offset ∨ Chars.InsideCharacter d.text.toList offset := by
  rw [Text.byteLength, ← Chars.splitAtByte?_eq_none_iff]
  cases hsplit : Chars.splitAtByte? offset d.text.toList with
  | none => simp [caretFragment?, hsplit]
  | some p =>
    obtain ⟨htext, rfl⟩ := Chars.splitAtByte?_eq_some hsplit
    suffices hsome : ∃ fragment, d.caretFragment? (Chars.byteLength p.1) = some fragment by
      obtain ⟨fragment, hfragment⟩ := hsome
      simp [hfragment]
    by_cases htouched : ∃ span ∈ d.attributeSpans, span.touches (Chars.byteLength p.1) = true
    · obtain ⟨span, hspan, htouches⟩ := htouched
      obtain ⟨-, fragment, -, -, hfragment⟩ :=
        caretFragment?_of_touches htext hstarts hapart hspan htouches
      exact ⟨_, hfragment⟩
    · exact ⟨_, caretFragment?_of_not_touches htext fun span hspan htouches =>
        htouched ⟨span, hspan, htouches⟩⟩

/-- The text being typed is exact. In a parsed document whose attribute values begin between
characters and are never touched two at once: there is no text being typed exactly past the end of
the text and inside a character. At any other offset it is the text from the beginning of the value
that the offset touches up to the offset; where no value is touched, it is the longest end of the
text before the offset that has no blank and no angle bracket. -/
theorem caretFragment?_exact {uri : FileUri} {text : String} (hd : parse uri text = .ok d)
    (hstarts : ∀ span ∈ d.attributeSpans, Chars.IsBoundary text.toList span.start)
    (hapart : d.attributeSpans.Pairwise Span.Apart) (offset : Nat) :
    (d.caretFragment? offset = none ↔
      Text.byteLength text < offset ∨ Chars.InsideCharacter text.toList offset) ∧
    (Chars.IsBoundary text.toList offset →
      ∃ before after, text.toList = before ++ after ∧ Chars.byteLength before = offset ∧
        (∀ span ∈ d.attributeSpans, span.start ≤ offset → offset ≤ span.stop →
          ∃ front fragment, before = front ++ fragment ∧ Chars.byteLength front = span.start ∧
            d.caretFragment? offset = some (String.ofList fragment)) ∧
        ((∀ span ∈ d.attributeSpans, ¬ (span.start ≤ offset ∧ offset ≤ span.stop)) →
          ∃ fragment, fragment <:+ before ∧ Unbroken fragment ∧
            (∀ ending, ending <:+ before → Unbroken ending → ending <:+ fragment) ∧
            d.caretFragment? offset = some (String.ofList fragment))) := by
  obtain ⟨root, -, rfl⟩ := parse_eq_ok_iff.1 hd
  refine ⟨caretFragment?_eq_none_iff hstarts hapart offset, ?_⟩
  intro hoffset
  obtain ⟨before, after, htext, rfl⟩ := hoffset.exists_append
  refine ⟨before, after, htext, rfl, ?_, ?_⟩
  · intro span hspan hstart hstop
    exact caretFragment?_of_touches htext hstarts hapart hspan
      (Span.touches_iff.2 ⟨hstart, hstop⟩)
  · intro hspans
    refine ⟨Chars.afterLast endsFragment before, Chars.afterLast_suffix _ _, ?_, ?_, ?_⟩
    · exact unbroken_iff.2 fun c hc => Chars.not_of_mem_afterLast _ hc
    · intro ending hending hunbroken
      exact Chars.suffix_afterLast _ hending (unbroken_iff.1 hunbroken)
    · apply caretFragment?_of_not_touches htext
      intro span hspan htouches
      exact hspans span hspan (Span.touches_iff.1 htouches)

/-- A mapper document with characters of several bytes in its values and in its text, where a
blank of three bytes stands. -/
def umlautText : String :=
  "<mapper><select id='ä' note='ö ü'>a\u2003wört</select></mapper>"

/-- The caret stands inside the first letter, in the second value, and behind the blank. -/
theorem caretFragment?_exact_umlauts :
    ∃ d, parse ⟨"M.xml"⟩ umlautText = .ok d ∧ d.attributeSpans = [⟨20, 22⟩, ⟨30, 35⟩] ∧
      d.caretFragment? 21 = none ∧
      (∃ front fragment, Chars.byteLength front = 30 ∧ front ++ fragment <+: umlautText.toList ∧
        d.caretFragment? 35 = some (String.ofList fragment)) ∧
      ∃ fragment, Unbroken fragment ∧ ['w', 'ö'] <:+ fragment ∧
        d.caretFragment? 44 = some (String.ofList fragment) := by
  have hparsed : (parse ⟨"M.xml"⟩ umlautText).toOption.map (·.attributeSpans) =
      some [⟨20, 22⟩, ⟨30, 35⟩] := by
    decide +kernel
  obtain ⟨d, hd, hspans⟩ := exists_of_toOption_parse hparsed
  have hstarts : ∀ span ∈ d.attributeSpans, Chars.IsBoundary umlautText.toList span.start := by
    rw [hspans]
    decide +kernel
  have hapart : d.attributeSpans.Pairwise Span.Apart := by
    rw [hspans]
    simpa using Span.apart_of_stop_lt (by decide)
  have hexact := caretFragment?_exact hd hstarts hapart
  refine ⟨d, hd, hspans, ?_, ?_, ?_⟩
  · exact (hexact 21).1.2 (Chars.splitAtByte?_eq_none_iff.1 (by decide +kernel))
  · obtain ⟨before, after, htext, -, hvalue, -⟩ := (hexact 35).2 (by decide +kernel)
    obtain ⟨front, fragment, rfl, hfront, hfragment⟩ :=
      hvalue ⟨30, 35⟩ (by simp [hspans]) (by decide) (by decide)
    exact ⟨front, fragment, hfront, ⟨after, htext.symm⟩, hfragment⟩
  · obtain ⟨before, after, htext, hlength, -, helsewhere⟩ := (hexact 44).2 (by decide +kernel)
    obtain ⟨fragment, -, hunbroken, hlongest, hfragment⟩ :=
      helsewhere (by rw [hspans]; decide)
    refine ⟨fragment, hunbroken, ?_, hfragment⟩
    apply hlongest
    · have hsplit := Chars.splitAtByte?_append before after
      rw [← htext, hlength] at hsplit
      have hletters : (Chars.splitAtByte? 44 umlautText.toList).all fun p =>
          ['w', 'ö'].isSuffixOf p.1 := by
        decide +kernel
      rw [hsplit] at hletters
      exact List.isSuffixOf_iff_suffix.1 hletters
    · simp only [Unbroken, List.forall_mem_cons]
      exact ⟨by decide, by decide, List.forall_mem_nil _⟩

end SqlMapper.Document

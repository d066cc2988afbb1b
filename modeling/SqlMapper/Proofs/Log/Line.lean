import Mathlib.Data.List.Forall2
import Mathlib.Data.List.Infix
import SqlMapper.Proofs.Chars.Blank
import SqlMapper.Proofs.Chars.Join
import SqlMapper.Proofs.Log.Entry

/-!
# Reading a logged line

A log writes the parameters of a statement on one line behind a marker. Cutting the line at the
separators gives the entries back: a separator ends in a blank, and the only blanks of an entry are
those of its value.

## Main definitions

* `Log.Legible`: a value and a type that can be read from a line.
* `Log.writtenLine`: the line of some values and their types.

## Main statements

* `Log.entries_writtenLine`: the entries on a line are those that were written.
* `Log.literals_writtenLine`: each entry is read as the literal that it denotes.
-/

namespace SqlMapper

namespace Log

/-- A value and a type that can be read from a line: the value begins with a word and holds neither
a newline nor a separator, and the type can stand in parentheses. -/
structure Legible (value typeName : String) : Prop where
  startsWithWord : ∃ c ∈ value.toList.head?, Chars.isWord c = true
  noNewline : '\n' ∉ value.toList
  noSeparator : ¬separator.toList <:+: value.toList
  plainType : PlainType typeName.toList

instance (value typeName : String) : Decidable (Legible value typeName) :=
  decidable_of_iff
    (value.toList.head?.map Chars.isWord = some true ∧ '\n' ∉ value.toList ∧
      ¬separator.toList <:+: value.toList ∧ PlainType typeName.toList)
    ⟨fun ⟨h₁, h₂, h₃, h₄⟩ => ⟨Option.map_eq_some_iff.1 h₁, h₂, h₃, h₄⟩,
      fun ⟨h₁, h₂, h₃, h₄⟩ => ⟨Option.map_eq_some_iff.2 h₁, h₂, h₃, h₄⟩⟩

/-- The line for some values and their types. -/
def writtenLine (parameters : List (String × String)) : String :=
  "==> Parameters: " ++ Text.join separator (parameters.map fun p => written p.1 p.2)

variable {value typeName : String}

theorem Legible.literal_written (h : Legible value typeName) :
    literal (written value typeName) = literalOf value typeName := by
  rw [literal, typedValue?_written h.startsWithWord h.noNewline h.plainType]

/-- No separator begins in an entry. -/
theorem Legible.not_occurs_in_entry (h : Legible value typeName) :
    ¬separator.toList <:+: (written value typeName).toList ++ separator.toList.dropLast := by
  intro hoccurs
  have hentry : (written value typeName).toList ++ separator.toList.dropLast =
      value.toList ++ ('(' :: (typeName.toList ++ [')', ','])) := by
    simp [written, separator]
  have hblank : ' ' ∉ '(' :: (typeName.toList ++ [')', ',']) := by
    have htype : ' ' ∉ typeName.toList :=
      fun hmem => absurd (h.plainType.notBlank ' ' hmem) (by decide)
    simp [htype]
  rw [hentry] at hoccurs
  exact h.noSeparator (Chars.infix_of_infix_append (by simp [separator])
    (by simpa [separator] using hblank) hoccurs)

/-- The marker of a line is its first one, whatever stands behind it. -/
theorem breakAt?_marker (text : List Char) :
    Chars.breakAt? marker.toList ("==> Parameters: ".toList ++ text) =
      some ("==> ".toList, ' ' :: text) := by
  simp [marker, Chars.breakAt?, List.isPrefixOf?]

/-- Joined entries begin with a character that is not blank. -/
theorem exists_cons_join {parameters : List (String × String)} (hne : parameters ≠ [])
    (h : ∀ p ∈ parameters, Legible p.1 p.2) :
    ∃ c rest, (Text.join separator (parameters.map fun p => written p.1 p.2)).toList = c :: rest ∧
      Chars.isBlank c = false := by
  obtain ⟨p, ps, rfl⟩ := List.exists_cons_of_ne_nil hne
  obtain ⟨c, hhead, hword⟩ := (h p List.mem_cons_self).startsWithWord
  obtain ⟨value, hvalue⟩ := List.head?_eq_some_iff.1 hhead
  obtain ⟨more, hmore⟩ := Text.prefix_join separator (written p.1 p.2)
    (ps.map fun p => written p.1 p.2)
  rw [List.map_cons, ← hmore, written]
  simp [hvalue, Chars.isBlank_of_isWord hword]

/-- The entries on a line are those that were written. -/
theorem entries_writtenLine {parameters : List (String × String)} (hne : parameters ≠ [])
    (h : ∀ p ∈ parameters, Legible p.1 p.2) {ends : String}
    (hends : ∀ c ∈ ends.toList, isLineEnd c = true) :
    entries (writtenLine parameters ++ ends) = parameters.map fun p => written p.1 p.2 := by
  have hpieces : parameters.map (fun p => written p.1 p.2) ≠ [] := by simpa using hne
  have hcut : Text.splitOn separator
      (Text.join separator (parameters.map fun p => written p.1 p.2)) =
        parameters.map fun p => written p.1 p.2 := by
    refine Text.splitOn_join (by decide) hpieces ?_
    intro entry hentry
    obtain ⟨p, hp, rfl⟩ := List.mem_map.1 hentry
    exact (h p hp).not_occurs_in_entry
  have hclosed : (Text.join separator
      (parameters.map fun p => written p.1 p.2)).toList.getLast? = some ')' := by
    refine Text.getLast?_join hpieces ?_
    intro entry hentry
    obtain ⟨p, -, rfl⟩ := List.mem_map.1 hentry
    simp [written, List.getLast?_cons]
  obtain ⟨c, rest, hstart, hc⟩ := exists_cons_join hne h
  rw [entries, writtenLine, String.toList_append, String.toList_append, List.append_assoc,
    breakAt?_marker]
  generalize Text.join separator (parameters.map fun p => written p.1 p.2) = joined at *
  obtain ⟨front, hend⟩ := List.getLast?_eq_some_iff.1 hclosed
  -- The line begins with a word and ends with a parenthesis, so only what is around it goes.
  have htrim : Chars.dropEndWhile isLineEnd
      (Chars.trimStart (' ' :: (joined.toList ++ ends.toList))) = joined.toList := by
    have hfront : Chars.trimStart (' ' :: (joined.toList ++ ends.toList)) =
        joined.toList ++ ends.toList := by
      rw [hstart]
      simp [Chars.trimStart, hc, show Chars.isBlank ' ' = true by decide]
    rw [hfront, hend]
    exact Chars.dropEndWhile_append front (by decide) hends
  have hsome : joined.toList.isEmpty = false := by simp [hstart]
  simp only [htrim, hsome]
  exact hcut

/-- The literals read from a logged line are those of its parameters, one for each and in order: a
text for a value that is not of an integer type, an integer if the value of such a type spells one,
and else the value as it stands. It does not matter what else values hold, or how the line ends. -/
theorem literals_writtenLine (parameters : List (String × String)) (hne : parameters ≠ [])
    (h : ∀ p ∈ parameters, Legible p.1 p.2) (ends : String)
    (hends : ∀ c ∈ ends.toList, c = '\r' ∨ c = '\n') :
    List.Forall₂ (fun p l => Denotes p.1 p.2 l) parameters
      (literals (entries (writtenLine parameters ++ ends))) := by
  have hlineEnds : ∀ c ∈ ends.toList, isLineEnd c = true := by
    intro c hc
    simpa [isLineEnd] using hends c hc
  rw [entries_writtenLine hne h hlineEnds, literals, List.map_map, List.forall₂_map_right_iff,
    List.forall₂_same]
  intro p hp
  rw [Function.comp_apply, (h p hp).literal_written]
  exact denotes_literalOf p.1 p.2

/-- Values that look like a marker, an entry and the end of one. -/
def misleading : List (String × String) :=
  [("Parameters: f(x),'2(Long)", "String"), ("0012 ", "Integer"), ("x)", "Long")]

/-- Misleading values are read as they were written, also behind a line end of two characters. -/
theorem literals_writtenLine_misleading :
    misleading ≠ [] ∧ (∀ p ∈ misleading, Legible p.1 p.2) ∧
      List.Forall₂ (fun p l => Denotes p.1 p.2 l) misleading
        [.text "Parameters: f(x),'2(Long)", .integer 12, .raw "x)"] := by
  have hlegible : ∀ p ∈ misleading, Legible p.1 p.2 := by decide +kernel
  have hliterals : literals (entries (writtenLine misleading ++ "\r\n")) =
      [.text "Parameters: f(x),'2(Long)", .integer 12, .raw "x)"] := by decide +kernel
  refine ⟨by decide, hlegible, ?_⟩
  rw [← hliterals]
  exact literals_writtenLine misleading (by decide) hlegible "\r\n" (by simp)

end Log

end SqlMapper

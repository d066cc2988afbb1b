import SqlMapper.Text

/-!
# The bytes of a text

The UTF-8 form of a text, and where newlines stand in it. A newline is one byte, and no other
character has that byte in its encoding, so newlines can be counted in bytes. An offset in bytes
splits a text unless it falls inside a character.

## Main definitions

* `Text.bytes`: the bytes of a text.
* `Chars.InsideCharacter`, `Chars.IsBoundary`: offsets inside and between characters.

## Main statements

* `Text.bytes_eq_flatMap`: the bytes of a text are those of its characters.
* `Text.length_bytes`: there are as many of them as the characters need.
* `newlineByte_mem_utf8EncodeChar`: only a newline has the byte of a newline.
* `Chars.splitAtByte?_eq_none_iff`: the offsets that split no text.
-/

namespace SqlMapper

/-- The byte of a newline. -/
def newlineByte : UInt8 := 0x0A

/-- The bytes of a text, in UTF-8. -/
def Text.bytes (s : String) : List UInt8 :=
  s.toByteArray.data.toList

theorem Text.bytes_eq_flatMap (s : String) :
    bytes s = s.toList.flatMap String.utf8EncodeChar := by
  have hencode : s.toByteArray = s.toList.utf8Encode := by
    rw [← String.toByteArray_ofList, String.ofList_toList]
  rw [bytes, hencode, List.utf8Encode, List.data_toByteArray]

theorem Chars.length_flatMap_utf8EncodeChar (cs : List Char) :
    (cs.flatMap String.utf8EncodeChar).length = byteLength cs := by
  induction cs with
  | nil => rfl
  | cons c cs ih =>
    rw [List.flatMap_cons, List.length_append, ih, String.length_utf8EncodeChar, byteLength_cons]

theorem Text.length_bytes (s : String) : (bytes s).length = byteLength s := by
  rw [bytes_eq_flatMap, Chars.length_flatMap_utf8EncodeChar, byteLength]

/-- A byte of a character is its code, or one of several bytes, which are all large. -/
theorem toNat_of_mem_utf8EncodeChar {c : Char} {b : UInt8} (h : b ∈ String.utf8EncodeChar c) :
    b.toNat = c.toNat ∨ 128 ≤ b.toNat := by
  have hcode : c.val.toNat = c.toNat := rfl
  have hbyte : ∀ n, b = UInt8.ofNat n → n < 256 → b.toNat = n := by
    rintro n rfl hn
    exact UInt8.toNat_ofNat_of_lt' hn
  simp only [String.utf8EncodeChar, hcode] at h
  split at h
  · exact .inl (hbyte _ (List.mem_singleton.1 h) (by omega))
  · right
    split at h
    · grind
    · split at h
      · grind
      · grind

theorem newlineByte_mem_utf8EncodeChar {c : Char} :
    newlineByte ∈ String.utf8EncodeChar c ↔ c = '\n' := by
  constructor
  · intro h
    rcases toNat_of_mem_utf8EncodeChar h with hcode | hlarge
    · exact Char.toNat_inj.1 hcode.symm
    · exact absurd hlarge (by decide)
  · rintro rfl
    decide

namespace Chars

/-! ### Offsets inside characters -/

/-- The offset falls behind the first byte of a character of the text and before the end of that
character. -/
def InsideCharacter (text : List Char) (offset : Nat) : Prop :=
  ∃ front c back, text = front ++ c :: back ∧
    byteLength front < offset ∧ offset < byteLength front + c.utf8Size

theorem insideCharacter_cons {c : Char} {text : List Char} {offset : Nat} :
    InsideCharacter (c :: text) offset ↔
      (0 < offset ∧ offset < c.utf8Size) ∨
        (c.utf8Size ≤ offset ∧ InsideCharacter text (offset - c.utf8Size)) := by
  constructor
  · rintro ⟨front, d, back, htext, hbehind, hbefore⟩
    rcases List.cons_eq_append_iff.1 htext with ⟨rfl, heq⟩ | ⟨rest, rfl, rfl⟩
    · obtain ⟨rfl, rfl⟩ := List.cons.inj heq
      exact .inl ⟨by simpa using hbehind, by simpa using hbefore⟩
    · rw [byteLength_cons] at hbehind hbefore
      exact .inr ⟨by omega, rest, d, back, rfl, by omega, by omega⟩
  · rintro (⟨hbehind, hbefore⟩ | ⟨hle, front, d, back, rfl, hbehind, hbefore⟩)
    · exact ⟨[], c, text, rfl, by simpa using hbehind, by simpa using hbefore⟩
    · refine ⟨c :: front, d, back, rfl, ?_⟩
      rw [byteLength_cons]
      omega

/-- A text can be split unless the offset lies past its end or inside a character. -/
theorem splitAtByte?_eq_none_iff {offset : Nat} {text : List Char} :
    splitAtByte? offset text = none ↔
      byteLength text < offset ∨ InsideCharacter text offset := by
  fun_induction splitAtByte? offset text with
  | case1 text =>
    have hinside : ¬ InsideCharacter text 0 := by
      rintro ⟨front, c, back, -, hbehind, -⟩
      omega
    simp [hinside]
  | case2 n => simp
  | case3 n c text hle ih =>
    rw [Option.map_eq_none_iff, ih, insideCharacter_cons, byteLength_cons]
    grind
  | case4 n c text hlt =>
    have hinside : InsideCharacter (c :: text) (n + 1) :=
      insideCharacter_cons.2 (.inl ⟨by omega, by omega⟩)
    simp [hinside]

/-- Splitting behind a first part gives back the two parts. -/
theorem splitAtByte?_append (before after : List Char) :
    splitAtByte? (byteLength before) (before ++ after) = some (before, after) := by
  induction before with
  | nil => rw [List.nil_append, byteLength_nil, splitAtByte?]
  | cons c before ih =>
    have hpos := c.utf8Size_pos
    obtain ⟨n, hn⟩ : ∃ n, c.utf8Size + byteLength before = n + 1 :=
      Nat.exists_eq_succ_of_ne_zero (by omega)
    have hrest : n + 1 - c.utf8Size = byteLength before := by omega
    rw [byteLength_cons, hn, List.cons_append, splitAtByte?, if_pos (by omega), hrest, ih]
    rfl

/-- The offset falls between two characters of the text, or at one of its ends. -/
def IsBoundary (text : List Char) (offset : Nat) : Prop :=
  offset ≤ byteLength text ∧ ¬ InsideCharacter text offset

theorem isBoundary_iff {text : List Char} {offset : Nat} :
    IsBoundary text offset ↔ (splitAtByte? offset text).isSome = true := by
  rw [Option.isSome_iff_ne_none, ne_eq, splitAtByte?_eq_none_iff, not_or, Nat.not_lt, IsBoundary]

instance (text : List Char) (offset : Nat) : Decidable (IsBoundary text offset) :=
  decidable_of_iff _ isBoundary_iff.symm

theorem IsBoundary.exists_append {text : List Char} {offset : Nat} (h : IsBoundary text offset) :
    ∃ before after, text = before ++ after ∧ byteLength before = offset := by
  obtain ⟨p, hp⟩ := Option.isSome_iff_exists.1 (isBoundary_iff.1 h)
  exact ⟨p.1, p.2, splitAtByte?_eq_some hp⟩

/-- Of two beginnings of a text, the one with fewer bytes begins the other. -/
theorem exists_append_of_byteLength_le {front back before after : List Char}
    (h : front ++ back = before ++ after) (hle : byteLength front ≤ byteLength before) :
    ∃ between, before = front ++ between := by
  rcases List.append_eq_append_iff.1 h with ⟨between, hbefore, -⟩ | ⟨more, hfront, -⟩
  · exact ⟨between, hbefore⟩
  · cases more with
    | nil => exact ⟨[], by simp [hfront]⟩
    | cons c more =>
      -- A character more would need a byte more.
      have hpos := c.utf8Size_pos
      rw [hfront, byteLength_append, byteLength_cons] at hle
      omega

end Chars

end SqlMapper

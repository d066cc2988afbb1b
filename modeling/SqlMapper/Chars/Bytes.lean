/-!
# Byte offsets

Offsets into a text count the bytes of its UTF-8 form. An offset names a place in the text only
if it does not fall inside a character.

## Main definitions

* `Chars.byteLength`: the number of bytes of a text.
* `Chars.splitAtByte?`: the text before and after an offset.
-/

namespace SqlMapper.Chars

/-- The number of bytes of the text. -/
def byteLength (cs : List Char) : Nat :=
  cs.foldr (fun c n => c.utf8Size + n) 0

@[simp]
theorem byteLength_nil : byteLength [] = 0 :=
  rfl

@[simp]
theorem byteLength_cons (c : Char) (cs : List Char) :
    byteLength (c :: cs) = c.utf8Size + byteLength cs :=
  rfl

@[simp]
theorem byteLength_append (cs ds : List Char) :
    byteLength (cs ++ ds) = byteLength cs + byteLength ds := by
  induction cs with
  | nil => simp
  | cons c cs ih =>
    rw [List.cons_append, byteLength_cons, byteLength_cons, ih]
    omega

/-- The text before and after byte offset `n`; `none` if `n` lies past the end of the text or
inside a character. -/
def splitAtByte? : Nat → List Char → Option (List Char × List Char)
  | 0, cs => some ([], cs)
  | _ + 1, [] => none
  | n + 1, c :: cs =>
    if c.utf8Size ≤ n + 1 then
      (splitAtByte? (n + 1 - c.utf8Size) cs).map fun p => (c :: p.1, p.2)
    else none

/-- Splitting loses nothing, and the first part has the asked number of bytes. -/
theorem splitAtByte?_eq_some {n : Nat} {cs before after : List Char}
    (h : splitAtByte? n cs = some (before, after)) :
    cs = before ++ after ∧ byteLength before = n := by
  fun_induction splitAtByte? n cs generalizing before after with
  | case1 cs => simp_all
  | case2 => simp at h
  | case3 n c cs hle ih =>
    obtain ⟨p, hp, heq⟩ := Option.map_eq_some_iff.1 h
    obtain ⟨rfl, rfl⟩ := Prod.mk.inj heq
    obtain ⟨happ, hlen⟩ := ih hp
    refine ⟨by simp [happ], ?_⟩
    rw [byteLength_cons]
    omega
  | case4 => simp at h

end SqlMapper.Chars

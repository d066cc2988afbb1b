/-!
# Blank characters

The characters with the Unicode property White_Space, and trimming by them. Trimming removes the
longest run of blanks at an end and nothing else.

## Main definitions

* `Chars.isBlank`: whether a character is blank.
* `Chars.trim`, `Chars.trimStart`, `Chars.trimEnd`: text without its outer blanks.
-/

namespace SqlMapper.Chars

/-- Whether `c` has the property White_Space. -/
def isBlank (c : Char) : Bool :=
  let n := c.toNat
  (0x9 ≤ n && n ≤ 0xD) || n == 0x20 || n == 0x85 || n == 0xA0 || n == 0x1680 ||
    (0x2000 ≤ n && n ≤ 0x200A) || n == 0x2028 || n == 0x2029 || n == 0x202F || n == 0x205F ||
    n == 0x3000

/-- The text without the blanks in front. -/
def trimStart (cs : List Char) : List Char :=
  cs.dropWhile isBlank

/-- The text without the characters at its end that satisfy `p`. -/
def dropEndWhile (p : Char → Bool) (cs : List Char) : List Char :=
  (cs.reverse.dropWhile p).reverse

/-- The text without the blanks at its end. -/
def trimEnd (cs : List Char) : List Char :=
  dropEndWhile isBlank cs

/-- The text without the blanks at both ends. -/
def trim (cs : List Char) : List Char :=
  trimEnd (trimStart cs)

/-- Whether the text has no character that is not blank. -/
def isBlankText (cs : List Char) : Bool :=
  cs.all isBlank

end SqlMapper.Chars

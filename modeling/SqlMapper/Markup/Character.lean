/-!
# Characters of markup

The character classes of XML documents: which characters may occur at all, which are spaces, and
which make up names.

## Main definitions

* `Markup.isAllowed`: characters that may occur in a document.
* `Markup.isSpace`: the four spaces of markup.
* `Markup.isNameStart`, `Markup.isNameChar`: characters of names.
-/

namespace SqlMapper.Markup

/-- The four characters that separate markup. -/
def isSpace (c : Char) : Bool :=
  c == ' ' || c == '\t' || c == '\n' || c == '\r'

/-- Whether a character may occur in a document. -/
def isAllowed (c : Char) : Bool :=
  if c.toNat < 0x20 then isSpace c else c.toNat != 0xFFFE && c.toNat != 0xFFFF

/-- The ranges of code points above ASCII with which a name can begin. -/
def nameStartRanges : List (Nat × Nat) :=
  [(0xC0, 0xD6), (0xD8, 0xF6), (0xF8, 0x2FF), (0x370, 0x37D), (0x37F, 0x1FFF), (0x200C, 0x200D),
   (0x2070, 0x218F), (0x2C00, 0x2FEF), (0x3001, 0xD7FF), (0xF900, 0xFDCF), (0xFDF0, 0xFFFD),
   (0x10000, 0xEFFFF)]

/-- The further ranges of code points above ASCII that can occur inside a name. -/
def nameInnerRanges : List (Nat × Nat) :=
  [(0xB7, 0xB7), (0x300, 0x36F), (0x203F, 0x2040)]

/-- Whether a code point lies in one of the ranges. -/
def inRanges (ranges : List (Nat × Nat)) (n : Nat) : Bool :=
  ranges.any fun r => r.1 ≤ n && n ≤ r.2

/-- Whether a name can begin with `c`. -/
def isNameStart (c : Char) : Bool :=
  if c.toNat ≤ 128 then c.isAlpha || c == ':' || c == '_' else inRanges nameStartRanges c.toNat

/-- Whether `c` can occur inside a name. -/
def isNameChar (c : Char) : Bool :=
  if c.toNat ≤ 128 then c.isAlphanum || c == ':' || c == '_' || c == '-' || c == '.'
  else inRanges nameStartRanges c.toNat || inRanges nameInnerRanges c.toNat

end SqlMapper.Markup

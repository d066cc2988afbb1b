/-!
# Cutting text at a separator

Searching a text for another text from the left, without overlaps.

## Main definitions

* `Chars.breakAt?`: the text before and after the first occurrence of a separator.
* `Chars.splitOn`: all pieces between the occurrences of a separator.
* `Chars.afterLast`: the text after the last character of a kind.
-/

namespace SqlMapper.Chars

/-- The text before and after the first occurrence of `sep`. -/
def breakAt? (sep : List Char) : List Char → Option (List Char × List Char)
  | [] => if sep.isEmpty then some ([], []) else none
  | c :: cs =>
    match sep.isPrefixOf? (c :: cs) with
    | some rest => some ([], rest)
    | none => (breakAt? sep cs).map fun p => (c :: p.1, p.2)

/-- Whether `sep` occurs in the text. -/
def occursIn (sep cs : List Char) : Bool :=
  (breakAt? sep cs).isSome

/-- The pieces with `c` put in front of the first one. -/
def consPiece (c : Char) : List (List Char) → List (List Char)
  | [] => [[c]]
  | p :: ps => (c :: p) :: ps

/-- The pieces of a text whose first `skip` characters belong to a separator already found. -/
def piecesAfter (sep : List Char) : Nat → List Char → List (List Char)
  | _, [] => [[]]
  | skip + 1, _ :: cs => piecesAfter sep skip cs
  | 0, c :: cs =>
    if sep.isPrefixOf (c :: cs) then [] :: piecesAfter sep (sep.length - 1) cs
    else consPiece c (piecesAfter sep 0 cs)

/-- The pieces between the occurrences of `sep`. The empty separator stands at both ends and
between any two characters. -/
def splitOn (sep cs : List Char) : List (List Char) :=
  if sep.isEmpty then [] :: cs.map ([·]) ++ [[]] else piecesAfter sep 0 cs

/-- The text after the last character that satisfies `p`; all of it if there is none. -/
def afterLast (p : Char → Bool) (cs : List Char) : List Char :=
  (cs.reverse.takeWhile fun c => !p c).reverse

/-- The text before the last character that satisfies `p`, if there is one. -/
def beforeLast? (p : Char → Bool) (cs : List Char) : Option (List Char) :=
  match cs.reverse.dropWhile fun c => !p c with
  | [] => none
  | _ :: front => some front.reverse

end SqlMapper.Chars

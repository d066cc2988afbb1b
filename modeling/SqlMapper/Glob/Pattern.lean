/-!
# Patterns of file names

A pattern of one name: `?` stands for a character, `*` for any text, and brackets for one of the
characters in them, or for one of the others behind an exclamation mark. Two asterisks alone stand
for any number of directories.

## Main definitions

* `Glob.Token`: the parts of a pattern.
* `Glob.tokens?`: the parts of a text that is a pattern.
* `Glob.fits`: whether a pattern fits a name.
-/

namespace SqlMapper.Glob

/-- A part of a pattern. -/
inductive Token where
  | character (c : Char)
  | anyCharacter
  | anyText
  /-- Any number of directories. -/
  | anyDirectories
  /-- One of the characters in the ranges. -/
  | within (ranges : List (Char × Char))
  /-- A character outside the ranges. -/
  | except (ranges : List (Char × Char))
  deriving Repr, DecidableEq

/-- The ranges written between brackets. A hyphen between two characters makes a range of them. -/
def ranges : List Char → List (Char × Char)
  | a :: '-' :: b :: rest => (a, b) :: ranges rest
  | a :: rest => (a, a) :: ranges rest
  | [] => []

/-- The ranges in brackets, of which the opening one has been read, and the pattern behind them.
The first character in brackets does not close them. -/
def bracket? (cs : List Char) : Option (Token × List Char) :=
  let body (first : Char) (rest : List Char) : Option (List (Char × Char) × List Char) :=
    match rest.dropWhile (· != ']') with
    | _ :: after => some (ranges (first :: rest.takeWhile (· != ']')), after)
    | [] => none
  match cs with
  | '!' :: first :: rest => (body first rest).map fun r => (.except r.1, r.2)
  | '!' :: [] => none
  | first :: rest => (body first rest).map fun r => (.within r.1, r.2)
  | [] => none

/-- The parts of a pattern from a place on, where the character before it is `previous`. Two
asterisks must make up a whole name, and there are never more. -/
def tokensFrom? : Nat → Option Char → List Char → Option (List Token)
  | 0, _, _ => none
  | _, _, [] => some []
  | fuel + 1, previous, c :: cs =>
    match c with
    | '?' => (tokensFrom? fuel (some c) cs).map (.anyCharacter :: ·)
    | '[' => do
      let (token, rest) ← bracket? cs
      let tokens ← tokensFrom? fuel (some ']') rest
      some (token :: tokens)
    | '*' =>
      let stars := (cs.takeWhile (· == '*')).length + 1
      let rest := cs.dropWhile (· == '*')
      if stars = 1 then (tokensFrom? fuel (some c) rest).map (.anyText :: ·)
      else if stars = 2 && (previous == none || previous == some '/') then
        match rest with
        | [] => some [.anyDirectories]
        | '/' :: rest => (tokensFrom? fuel (some '/') rest).map (.anyDirectories :: ·)
        | _ => none
      else none
    | _ => (tokensFrom? fuel (some c) cs).map (.character c :: ·)

/-- The parts of a text that is a pattern. -/
def tokens? (pattern : List Char) : Option (List Token) :=
  tokensFrom? (pattern.length + 1) none pattern

/-- Whether a character lies in one of the ranges. -/
def inRanges (ranges : List (Char × Char)) (c : Char) : Bool :=
  ranges.any fun r => r.1 ≤ c && c ≤ r.2

/-- Whether a pattern fits a name. -/
def fits : List Token → List Char → Bool
  | [], name => name.isEmpty
  | .anyText :: tokens, [] => fits tokens []
  | .anyText :: tokens, c :: name =>
    fits tokens (c :: name) || fits (.anyText :: tokens) name
  | .anyDirectories :: tokens, name => fits tokens name
  | _ :: _, [] => false
  | .character d :: tokens, c :: name => c == d && fits tokens name
  | .anyCharacter :: tokens, _ :: name => fits tokens name
  | .within rs :: tokens, c :: name => inRanges rs c && fits tokens name
  | .except rs :: tokens, c :: name => !inRanges rs c && fits tokens name
  termination_by tokens name => (tokens.length, name.length)

/-- The text of a pattern in which every character stands for itself. -/
def literal? : List Token → Option (List Char)
  | [] => some []
  | .character c :: tokens => (literal? tokens).map (c :: ·)
  | _ => none

end SqlMapper.Glob

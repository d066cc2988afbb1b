import SqlMapper.Text
import SqlMapper.Markup.Character
import SqlMapper.Markup.Fault

/-!
# Cursors

A cursor is a place in a text together with the characters from there on. Reading moves it
forward; the offset always counts the bytes passed.

## Main definitions

* `Cursor.skip`, `Cursor.skipWhile`, `Cursor.takeWhile`: moving over characters.
* `Cursor.expect`: moving over a given text.
* `Cursor.takeUntil`: moving over allowed characters up to a given text.
* `Cursor.name`, `Cursor.qualifiedName`: reading names.
-/

namespace SqlMapper.Markup

/-- A byte offset in a text and the characters from there on. -/
structure Cursor where
  offset : Nat
  rest : List Char
  deriving Repr, DecidableEq

/-- A name with its namespace part, which is empty if none is written. -/
structure QualifiedName where
  space : String
  base : String
  deriving Repr, DecidableEq

namespace Cursor

/-- Whether nothing is left to read. -/
def atEnd (c : Cursor) : Bool :=
  c.rest.isEmpty

/-- The cursor behind the first `n` characters. -/
def skip (c : Cursor) (n : Nat) : Cursor :=
  ⟨c.offset + Chars.byteLength (c.rest.take n), c.rest.drop n⟩

/-- Whether the rest begins with `text`. -/
def looksAt (c : Cursor) (text : String) : Bool :=
  text.toList.isPrefixOf c.rest

/-- The longest run of characters that satisfy `p`, and the cursor behind it. -/
def takeWhile (c : Cursor) (p : Char → Bool) : List Char × Cursor :=
  let run := c.rest.takeWhile p
  (run, ⟨c.offset + Chars.byteLength run, c.rest.dropWhile p⟩)

/-- The cursor behind the longest run of characters that satisfy `p`. -/
def skipWhile (c : Cursor) (p : Char → Bool) : Cursor :=
  (c.takeWhile p).2

/-- The cursor behind the spaces. -/
def skipSpaces (c : Cursor) : Cursor :=
  c.skipWhile isSpace

/-- The cursor behind the spaces, of which there must be one. -/
def demandSpaces (c : Cursor) : Except Fault Cursor :=
  match c.rest with
  | s :: _ => if isSpace s then .ok c.skipSpaces else .error .unexpectedText
  | [] => .error .unexpectedText

/-- The cursor behind `text`, with which the rest must begin. -/
def expect (c : Cursor) (text : String) : Except Fault Cursor :=
  if c.looksAt text then .ok (c.skip text.toList.length) else .error .unexpectedText

/-- The run of allowed characters up to the first that fails `p`, and the cursor there. -/
def takeAllowedWhile (c : Cursor) (p : Char → Bool) : Except Fault (List Char × Cursor) :=
  let (run, after) := c.takeWhile fun x => isAllowed x && p x
  match after.rest with
  | x :: _ => if isAllowed x then .ok (run, after) else .error .forbiddenCharacter
  | [] => .ok (run, after)

/-- The characters in front of the first occurrence of `stop`, all of which must be allowed, and
the cursor behind that occurrence. -/
def takeUntil (c : Cursor) (stop : String) : Except Fault (List Char × Cursor) :=
  match Chars.breakAt? stop.toList c.rest with
  | none => .error .unexpectedText
  | some (run, _) =>
    if run.all isAllowed then .ok (run, c.skip (run.length + stop.toList.length))
    else .error .forbiddenCharacter

/-- The name at the cursor, and the cursor behind it. -/
def name (c : Cursor) : Except Fault (List Char × Cursor) :=
  match c.rest with
  | x :: _ => if isNameStart x then .ok (c.takeWhile isNameChar) else .error .invalidName
  | [] => .error .invalidName

/-- The text up to the next character `quote`, which is demanded, and the cursor behind it. -/
def quoted (c : Cursor) (quote : Char) : Except Fault (List Char × Cursor) :=
  let (run, after) := c.takeWhile (· != quote)
  if after.atEnd then .error .unexpectedText else .ok (run, after.skip 1)

/-- The quotation mark at the cursor, and the cursor behind it. -/
def quote (c : Cursor) : Except Fault (Char × Cursor) :=
  match c.rest with
  | x :: _ => if x == '"' || x == '\'' then .ok (x, c.skip 1) else .error .unexpectedText
  | [] => .error .unexpectedText

/-- Whether a part of a qualified name begins as a name does. -/
def beginsName : List Char → Bool
  | [] => true
  | x :: _ => isNameStart x

/-- The qualified name at the cursor, and the cursor behind it. At most one colon divides it; the
part in front of the colon may be empty. -/
def qualifiedName (c : Cursor) : Except Fault (QualifiedName × Cursor) :=
  let part (d : Cursor) := d.takeWhile fun x => isNameChar x && x != ':'
  let (first, afterFirst) := part c
  let (space, base, after) :=
    match afterFirst.rest with
    | ':' :: _ =>
      let (second, afterSecond) := part (afterFirst.skip 1)
      (first, second, afterSecond)
    | _ => ([], first, afterFirst)
  if base.isEmpty || !beginsName base || !beginsName space then .error .invalidName
  else .ok (⟨String.ofList space, String.ofList base⟩, after)

end Cursor

end SqlMapper.Markup

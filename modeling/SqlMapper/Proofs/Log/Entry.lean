import Mathlib.Data.List.TakeWhile
import Mathlib.Data.Nat.Digits.Defs
import SqlMapper.Log.Entry

/-!
# Reading a logged parameter

An entry is written as a value with its type in parentheses. Reading takes the longest value that a
type follows, so parentheses in the value do no harm, and a value that begins with a word is read
from its beginning on.

## Main definitions

* `Log.written`: the entry of a value and its type.
* `Log.Spells`: a text is the decimal spelling of an integer of 64 bits.
* `Log.Denotes`: the literal that a value of a type stands for.

## Main statements

* `Log.integer?_eq_some_iff`: integers are read exactly if they are spelled.
* `Log.valueAndType?_written`: the value and the type of an entry.
* `Log.typedValue?_written`: reading an entry gives back what was written.
* `Log.denotes_literalOf`: the literal of a value and a type is the one that they stand for.
-/

namespace SqlMapper.Log

/-! ### Integers -/

/-- The number that digits stand for, the last one counting least. -/
def decimal (digits : List Char) : Nat :=
  Nat.ofDigits 10 (digits.reverse.map fun c => c.toNat - '0'.toNat)

/-- The text spells the integer: digits behind a sign or none, for a number of 64 bits. -/
def Spells (text : List Char) (n : Int) : Prop :=
  ∃ sign digits, text = sign ++ digits ∧ digits ≠ [] ∧ (∀ c ∈ digits, c.isDigit = true) ∧
    (sign = ['-'] ∧ n = -(decimal digits : Int) ∨
      (sign = [] ∨ sign = ['+']) ∧ n = (decimal digits : Int)) ∧
    -2 ^ 63 ≤ n ∧ n < 2 ^ 63

theorem foldl_eq_decimal (digits : List Char) :
    digits.foldl (fun n c => n * 10 + (c.toNat - '0'.toNat)) 0 = decimal digits := by
  rw [decimal, Nat.ofDigits_eq_foldr, List.foldr_map, List.foldr_reverse]
  congr 1
  funext n c
  simp [Nat.mul_comm, Nat.add_comm]

theorem digits?_eq_some_iff {digits : List Char} {n : Nat} :
    digits? digits = some n ↔
      digits ≠ [] ∧ (∀ c ∈ digits, c.isDigit = true) ∧ decimal digits = n := by
  rw [digits?, foldl_eq_decimal, ← List.all_eq_true]
  cases hall : digits.all Char.isDigit with
  | false => simp
  | true => by_cases hempty : digits = [] <;> simp [hempty]

theorem integer?_eq_some_iff {text : List Char} {n : Int} :
    integer? text = some n ↔ Spells text n := by
  constructor
  · intro h
    obtain ⟨hread, hbounds⟩ := Option.filter_eq_some_iff.1 h
    rw [Bool.and_eq_true, decide_eq_true_eq, decide_eq_true_eq] at hbounds
    split at hread
    all_goals
      obtain ⟨_, hm, rfl⟩ := Option.map_eq_some_iff.1 hread
      obtain ⟨m, hdigits, hcast⟩ := Option.bind_eq_some_iff.1 hm
      obtain rfl := Option.some.inj hcast
      obtain ⟨hne, hall, rfl⟩ := digits?_eq_some_iff.1 hdigits
    · exact ⟨['-'], _, rfl, hne, hall, .inl ⟨rfl, rfl⟩, hbounds⟩
    · exact ⟨['+'], _, rfl, hne, hall, .inr ⟨.inr rfl, rfl⟩, hbounds⟩
    · exact ⟨[], _, rfl, hne, hall, .inr ⟨.inl rfl, rfl⟩, hbounds⟩
  · rintro ⟨sign, digits, rfl, hne, hall, hsign, hbounds⟩
    have hdigits : digits? digits = some (decimal digits) :=
      digits?_eq_some_iff.2 ⟨hne, hall, rfl⟩
    refine Option.filter_eq_some_iff.2 ⟨?_, by simpa using hbounds⟩
    rcases hsign with ⟨rfl, rfl⟩ | ⟨rfl | rfl, rfl⟩
    · simp [hdigits]
    · -- A digit is no sign, so all of the text is read as digits.
      rw [List.nil_append]
      split
      · cases hall '-' List.mem_cons_self
      · cases hall '+' List.mem_cons_self
      · simp [hdigits]
    · simp [hdigits]

/-! ### Value and type -/

/-- The entry for a value of a type. -/
def written (value typeName : String) : String :=
  value ++ "(" ++ typeName ++ ")"

/-- A type that can stand in parentheses: it has no blanks and no parentheses, and is not empty. -/
structure PlainType (typeName : List Char) : Prop where
  nonempty : typeName ≠ []
  notBlank : ∀ c ∈ typeName, Chars.isBlank c = false
  noOpening : '(' ∉ typeName
  noClosing : ')' ∉ typeName

instance (typeName : List Char) : Decidable (PlainType typeName) :=
  decidable_of_iff
    (typeName ≠ [] ∧ (typeName.all fun c => !Chars.isBlank c) = true ∧
      '(' ∉ typeName ∧ ')' ∉ typeName)
    ⟨fun ⟨h₁, h₂, h₃, h₄⟩ => ⟨h₁, by simpa using h₂, h₃, h₄⟩,
      fun ⟨h₁, h₂, h₃, h₄⟩ => ⟨h₁, by simpa using h₂, h₃, h₄⟩⟩

variable {value typeName : List Char}

theorem typeName?_closed (h : PlainType typeName) :
    typeName? (typeName ++ [')']) = some typeName := by
  have hword : (typeName ++ [')']).takeWhile (fun c => !Chars.isBlank c) = typeName ++ [')'] := by
    rw [List.takeWhile_eq_self_iff]
    intro c hc
    rcases List.mem_append.1 hc with hmem | hlast
    · simp [h.notBlank c hmem]
    · rw [List.mem_singleton.1 hlast]
      rfl
  have hclosing : Chars.beforeLast? (· == ')') (typeName ++ [')']) = some typeName := by
    simp [Chars.beforeLast?]
  simp [typeName?, hword, hclosing, h.nonempty]

/-- Without an opening parenthesis there is no type. -/
theorem valueAndType?_eq_none {text : List Char} (h : '(' ∉ text) : valueAndType? text = none := by
  induction text with
  | nil => rfl
  | cons c text ih =>
    rw [List.mem_cons, not_or] at h
    simp [valueAndType?, ih h.2, Ne.symm h.1]

/-- The value of an entry is all that stands in front of the last parenthesis that opens. -/
theorem valueAndType?_written (hvalue : '\n' ∉ value) (h : PlainType typeName) :
    valueAndType? (value ++ '(' :: (typeName ++ [')'])) = some (value, typeName) := by
  induction value with
  | nil =>
    have hnone : valueAndType? (typeName ++ [')']) = none :=
      valueAndType?_eq_none (by simp [h.noOpening])
    simp [valueAndType?, hnone, typeName?_closed h]
  | cons c value ih =>
    rw [List.mem_cons, not_or] at hvalue
    simp [valueAndType?, ih hvalue.2, Ne.symm hvalue.1]

/-- An entry whose value begins with a word is read from its beginning on. -/
theorem typedValue?_written {value typeName : String}
    (hword : ∃ c ∈ value.toList.head?, Chars.isWord c = true) (hvalue : '\n' ∉ value.toList)
    (h : PlainType typeName.toList) :
    typedValue? (written value typeName) = some (value, typeName) := by
  have hread := valueAndType?_written hvalue h
  obtain ⟨c, hc, hword⟩ := hword
  obtain ⟨rest, hrest⟩ := List.head?_eq_some_iff.1 hc
  have hentry : (written value typeName).toList =
      c :: (rest ++ '(' :: (typeName.toList ++ [')'])) := by
    simp [written, hrest]
  rw [hrest, List.cons_append] at hread
  rw [typedValue?, hentry, findTyped?, hword]
  simp [hread, ← hrest]

/-! ### Literals -/

/-- The literal that a value of a type stands for. -/
inductive Denotes (value typeName : String) : Literal → Prop
  | text (h : typeName ∉ integerTypes) : Denotes value typeName (.text value)
  | integer (h : typeName ∈ integerTypes) {n : Int} (hn : Spells (Chars.trim value.toList) n) :
      Denotes value typeName (.integer n)
  | raw (h : typeName ∈ integerTypes) (hn : ∀ n, ¬Spells (Chars.trim value.toList) n) :
      Denotes value typeName (.raw value)

theorem denotes_literalOf (value typeName : String) :
    Denotes value typeName (literalOf value typeName) := by
  unfold literalOf
  split
  · next htype =>
    rw [List.contains_iff_mem] at htype
    split
    · next n hn => exact .integer htype (integer?_eq_some_iff.1 hn)
    · next hnone =>
      refine .raw htype fun n hn => ?_
      rw [integer?_eq_some_iff.2 hn] at hnone
      cases hnone
  · next htype =>
    rw [List.contains_iff_mem] at htype
    exact .text htype

end SqlMapper.Log

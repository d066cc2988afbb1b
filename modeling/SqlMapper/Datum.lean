/-!
# Structured data

What the readers of settings and type models ask of a piece of data, whichever format it is
written in: to be a text, a number, a list or a record of named fields.

## Main definitions

* `Datum`: the questions that can be asked.
* `Record`: the fields of a record that are known, none of them twice.
-/

namespace SqlMapper

/-- Data that can be read as texts, numbers, lists and records. -/
class Datum (α : Type) where
  /-- The text of the data, where a text is wanted. -/
  text? : α → Option String
  /-- The text of data that can be nothing but a text. -/
  properText? : α → Option String
  /-- The natural number of 64 bits that the data stands for. -/
  natural? : α → Option Nat
  /-- The items of a list, where a list is wanted. -/
  items? : α → Option (List α)
  /-- The items of data that can be nothing but a list. -/
  properItems? : α → Option (List α)
  /-- The fields of a record, which may be unnamed if the format says so; they then follow the
  order of the names given. -/
  fields? : List String → α → Option (List (String × α))
  /-- Whether the data says that there is nothing. -/
  isNothing : α → Bool

/-- The fields of a record. -/
structure Record (α : Type) where
  fields : List (String × α)
  deriving Repr

namespace Record

variable {α : Type}

/-- Whether some name occurs twice among the fields. -/
def hasRepeated (names : List String) (fields : List (String × α)) : Bool :=
  names.any fun name => fields.countP (fun f => f.1 == name) > 1

/-- The record that the data is, with the fields of the given names. Other fields are passed over;
a field given twice is a fault. -/
def read? [Datum α] (names : List String) (data : α) : Option (Record α) := do
  let fields ← Datum.fields? names data
  if hasRepeated names fields then none else some ⟨fields⟩

/-- The field of this name, read by `f`. -/
def required? {β : Type} (r : Record α) (name : String) (f : α → Option β) : Option β :=
  (r.fields.lookup name).bind f

/-- The field of this name, read by `f`, or `default` if it is missing. -/
def field? {β : Type} (r : Record α) (name : String) (default : β) (f : α → Option β) : Option β :=
  match r.fields.lookup name with
  | some data => f data
  | none => some default

end Record

namespace Datum

variable {α β : Type} [Datum α]

/-- The items of a list, each read by `f`. -/
def list? (f : α → Option β) (data : α) : Option (List β) := do
  (← items? data).mapM f

/-- What `f` reads, or `none` if the data says that there is nothing. -/
def optional? (f : α → Option β) (data : α) : Option (Option β) :=
  if isNothing data then some none else (f data).map some

end Datum

end SqlMapper

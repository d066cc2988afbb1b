import SqlMapper.Json.Printer

/-!
# The indented form of JSON values

How the indented form of an object or of an array is put together from the forms of its parts: one
part a line, each a level deeper, with the brackets on lines of their own.

## Main statements

* `Json.prettyAt_ofMembers`, `Json.prettyAt_array`: the forms of objects and arrays.
-/

namespace SqlMapper.Json

/-! ### Forms of parts -/

theorem prettyItems_eq_map (level : Nat) (items : List Json) :
    prettyItems level items = items.map (prettyAt level) := by
  induction items with
  | nil => rfl
  | cons item items ih => rw [prettyItems, ih, List.map_cons]

theorem prettyMembers_eq_map (level : Nat) (members : List (String × Json)) :
    prettyMembers level (members.map fun m => (some m.1, m.2)) =
      members.map fun m => quote m.1 ++ ": " ++ prettyAt level m.2 := by
  induction members with
  | nil => rfl
  | cons m members ih => rw [List.map_cons, prettyMembers, ih, List.map_cons, Option.getD_some]

theorem prettyAt_null (level : Nat) : prettyAt level .null = "null" := by
  rw [prettyAt]

theorem prettyAt_ofText (level : Nat) (text : String) : prettyAt level (ofText text) = quote text := by
  rw [ofText, prettyAt, Option.getD_some]

theorem prettyAt_ofNat (level n : Nat) : prettyAt level (ofNat n) = toString n := by
  rw [ofNat, prettyAt]

theorem prettyAt_bool (level : Nat) (value : Bool) :
    prettyAt level (.bool value) = if value then "true" else "false" := by
  cases value <;> rw [prettyAt] <;> rfl

/-! ### Objects and arrays -/

/-- Lines between brackets, which stand on lines of their own. -/
theorem bracket_of_ne_nil (opening closing : String) (level : Nat) {lines : List String}
    (h : lines ≠ []) :
    bracket opening closing level lines =
      opening ++ "\n" ++ Text.join ",\n" (lines.map (indentation (level + 1) ++ ·)) ++ "\n" ++
        indentation level ++ closing := by
  rw [bracket, if_neg (by simpa using h)]

theorem prettyAt_ofMembers (level : Nat) {members : List (String × Json)} (h : members ≠ []) :
    prettyAt level (ofMembers members) =
      "\x7b" ++ "\n" ++
        Text.join ",\n" (members.map fun m =>
          indentation (level + 1) ++ (quote m.1 ++ ": " ++ prettyAt (level + 1) m.2)) ++
        "\n" ++ indentation level ++ "\x7d" := by
  rw [ofMembers, prettyAt, prettyMembers_eq_map, bracket_of_ne_nil _ _ _ (by simpa using h),
    List.map_map]
  rfl

theorem prettyAt_array (level : Nat) {items : List Json} (h : items ≠ []) :
    prettyAt level (.array items) =
      "[" ++ "\n" ++
        Text.join ",\n" (items.map fun item =>
          indentation (level + 1) ++ prettyAt (level + 1) item) ++
        "\n" ++ indentation level ++ "]" := by
  rw [prettyAt, prettyItems_eq_map, bracket_of_ne_nil _ _ _ (by simpa using h), List.map_map]
  rfl

end SqlMapper.Json

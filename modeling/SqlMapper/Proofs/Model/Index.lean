import Mathlib.Data.List.Nodup
import Mathlib.Data.List.Perm.Subperm
import SqlMapper.Model.Basic

/-!
# The indexes of a type model

A model finds classes by two indexes that it keeps beside the list of its classes. However the model
was put together, the indexes say what the list says, so what a reference names can be told from the
list alone.

## Main definitions

* `TypeModel.Locates`, `TypeModel.LocatesSingle`: an index says where the names of a list stand.
* `TypeModel.Indexed`: both indexes of a model do.
* `TypeModel.Unnamable`, `TypeModel.Denotes`: what a name stands for, told from the list of classes.
* `TypeModel.ofParts`: a model put together from parts.

## Main statements

* `TypeModel.Locates.concat`, `TypeModel.LocatesSingle.concat`: one more name.
* `TypeModel.Indexed.add`, `TypeModel.Indexed.extend`: more classes keep a model indexed.
* `TypeModel.Indexed.resolve?_eq_some_iff`: resolution finds what a name stands for.
* `TypeModel.resolve?_ofParts`: so it does however the model was put together.
-/

namespace SqlMapper.TypeModel

/-- The qualified names of the classes, in order. -/
def names (m : TypeModel) : List String :=
  m.classes.map (·.name)

/-- The unqualified names of the classes, in order. -/
def simpleNames (m : TypeModel) : List String :=
  m.classes.map (·.simpleName)

/-- The index gives for every name of the list its place, and for no other name any. -/
def Locates (index : Table String Nat) (names : List String) : Prop :=
  ∀ name place, index.get? name = some place ↔ names[place]? = some name

/-- The index gives the place of the names that stand in the list once, and marks those that stand
there more often. -/
structure LocatesSingle (index : Table String (Option Nat)) (names : List String) : Prop where
  single : ∀ name place, index.get? name = some (some place) ↔
    names[place]? = some name ∧ names.count name = 1
  several : ∀ name, index.get? name = some none ↔ 2 ≤ names.count name

/-- No two classes share a name and both indexes are right. -/
structure Indexed (m : TypeModel) : Prop where
  names_nodup : m.names.Nodup
  byName : Locates m.byName m.names
  bySimpleName : LocatesSingle m.bySimpleName m.simpleNames

/-- The name can be that of no class: it is empty, an instance of a generic type or an array. -/
def Unnamable (name : String) : Prop :=
  name = "" ∨ '<' ∈ name.toList ∨ '[' ∈ name.toList

/-- The name stands for the class: the class has it for its name or else, if no class does and the
name has no dots, it is the only class to have it for its unqualified name. -/
def Denotes (m : TypeModel) (name : String) (c : ClassDecl) : Prop :=
  c ∈ m.classes ∧ (c.name = name ∨
    (∀ d ∈ m.classes, d.name ≠ name) ∧ '.' ∉ name.toList ∧
      c.simpleName = name ∧ ∀ d ∈ m.classes, d.simpleName = name → d = c)

/-- The model that several lists of classes make, one after the other. -/
def ofParts (parts : List (List ClassDecl)) : TypeModel :=
  parts.foldl extend empty

/-! ### Indexes of a list of names -/

section

variable {names : List String} {name : String}

theorem getElem?_concat_eq_some_iff {place : Nat} {x : String} :
    (names ++ [name])[place]? = some x ↔
      names[place]? = some x ∨ place = names.length ∧ name = x := by
  rcases Nat.lt_trichotomy place names.length with hlt | rfl | hgt
  · have hne : place ≠ names.length := by omega
    simp [List.getElem?_append_left hlt, hne]
  · simp
  · have hne : place ≠ names.length := by omega
    have hold : names[place]? = none := List.getElem?_eq_none (by omega)
    have hall : (names ++ [name])[place]? = none := List.getElem?_eq_none (by simp; omega)
    simp [hold, hall, hne]

theorem Locates.get?_eq_none_iff {index : Table String Nat} (h : Locates index names) :
    index.get? name = none ↔ name ∉ names := by
  simp only [Option.eq_none_iff_forall_ne_some, List.mem_iff_getElem?, not_exists, ne_eq, h name]

theorem Locates.concat {index : Table String Nat} (h : Locates index names)
    (hnew : name ∉ names) : Locates (index.insert name names.length) (names ++ [name]) := by
  intro x place
  rw [Table.get?_insert, getElem?_concat_eq_some_iff]
  by_cases hx : x = name
  · subst hx
    have hold : names[place]? ≠ some x := fun hget => hnew (List.mem_of_getElem? hget)
    simp [hold, eq_comm]
  · simp [hx, Ne.symm hx, h x place]

/-- A name has an entry as soon as it stands in the list. -/
theorem LocatesSingle.contains_iff {index : Table String (Option Nat)}
    (h : LocatesSingle index names) : index.contains name = true ↔ name ∈ names := by
  rw [Table.contains_eq_isSome_get?, Option.isSome_iff_exists]
  constructor
  · rintro ⟨_ | place, hget⟩
    · have hcount := (h.several name).1 hget
      exact List.count_pos_iff.1 (by omega)
    · exact List.mem_of_getElem? ((h.single name place).1 hget).1
  · intro hmem
    have hpos := List.count_pos_iff.2 hmem
    by_cases hone : names.count name = 1
    · obtain ⟨place, hplace⟩ := List.mem_iff_getElem?.1 hmem
      exact ⟨some place, (h.single name place).2 ⟨hplace, hone⟩⟩
    · exact ⟨none, (h.several name).2 (by omega)⟩

theorem get?_noteSimpleName (index : Table String (Option Nat)) (name x : String) (place : Nat) :
    (noteSimpleName index name place).get? x =
      if x = name then some (if index.contains name then none else some place)
      else index.get? x := by
  rw [noteSimpleName]
  cases index.contains name <;> simp [Table.get?_insert]

/-- The first occurrence of a name gets its place into the index, every later one the mark. -/
theorem LocatesSingle.concat {index : Table String (Option Nat)} (h : LocatesSingle index names)
    (name : String) :
    LocatesSingle (noteSimpleName index name names.length) (names ++ [name]) := by
  have hslot : (noteSimpleName index name names.length).get? name =
      some (if name ∈ names then none else some names.length) := by
    simp only [get?_noteSimpleName, if_true, h.contains_iff]
  have hsame : (names ++ [name]).count name = names.count name + 1 := by simp
  have hother : ∀ x, x ≠ name →
      (noteSimpleName index name names.length).get? x = index.get? x ∧
        (names ++ [name]).count x = names.count x := by
    intro x hx
    simp [get?_noteSimpleName, hx, Ne.symm hx]
  constructor
  · intro x place
    rw [getElem?_concat_eq_some_iff]
    by_cases hx : x = name
    · subst hx
      rw [hslot, hsame]
      by_cases hmem : x ∈ names
      · simp [hmem, List.count_eq_zero]
      · have hold : names[place]? ≠ some x := fun hget => hmem (List.mem_of_getElem? hget)
        simp [hmem, hold, List.count_eq_zero.2 hmem, eq_comm]
    · rw [(hother x hx).1, (hother x hx).2, h.single x place]
      simp [Ne.symm hx]
  · intro x
    by_cases hx : x = name
    · subst hx
      rw [hslot, hsame]
      by_cases hmem : x ∈ names
      · simp [hmem]
      · simp [hmem, List.count_eq_zero.2 hmem]
    · rw [(hother x hx).1, (hother x hx).2, h.several x]

end

/-! ### More classes -/

variable {m : TypeModel} {c : ClassDecl} {place : Nat}

theorem simpleNames_eq (m : TypeModel) : m.simpleNames = m.names.map SqlMapper.simpleName := by
  rw [names, List.map_map]
  rfl

theorem names_replace (h : m.byName.get? c.name = some place) (hm : Locates m.byName m.names) :
    { m with classes := m.classes.set place c }.names = m.names := by
  obtain ⟨hlt, hget⟩ := List.getElem?_eq_some_iff.1 ((hm c.name place).1 h)
  rw [names, List.map_set, ← names, ← hget, List.set_getElem_self]

theorem indexed_empty : empty.Indexed where
  names_nodup := List.nodup_nil
  byName := by
    intro name place
    simp [empty, names]
  bySimpleName := by
    constructor <;> simp [empty, simpleNames]

/-- A class that replaces another has its name, so that no index changes. A new class goes to the
end, and so do its names. -/
theorem Indexed.add (h : m.Indexed) (c : ClassDecl) : (m.add c).Indexed := by
  unfold TypeModel.add
  split
  · next place hplace =>
    have hnames := names_replace hplace h.byName
    constructor
    · rw [hnames]
      exact h.names_nodup
    · rw [hnames]
      exact h.byName
    · rw [simpleNames_eq, hnames, ← simpleNames_eq]
      exact h.bySimpleName
  · next hnone =>
    have hnew := h.byName.get?_eq_none_iff.1 hnone
    have hplace : m.classes.length = m.names.length := (List.length_map _).symm
    have hplace' : m.classes.length = m.simpleNames.length := (List.length_map _).symm
    have hnames : (m.classes ++ [c]).map (·.name) = m.names ++ [c.name] := List.map_append
    have hsimple : (m.classes ++ [c]).map (·.simpleName) = m.simpleNames ++ [c.simpleName] :=
      List.map_append
    constructor
    · rw [names, hnames, ← List.concat_eq_append]
      exact h.names_nodup.concat hnew
    · rw [names, hnames, hplace]
      exact h.byName.concat hnew
    · rw [simpleNames, hsimple, hplace']
      exact h.bySimpleName.concat c.simpleName

theorem Indexed.extend (h : m.Indexed) (classes : List ClassDecl) : (m.extend classes).Indexed := by
  induction classes generalizing m with
  | nil => exact h
  | cons c classes ih => exact ih (h.add c)

theorem indexed_ofClasses (classes : List ClassDecl) : (ofClasses classes).Indexed :=
  indexed_empty.extend classes

/-- The parts of a model are the classes in them, one after the other. -/
theorem ofParts_eq_ofClasses (parts : List (List ClassDecl)) :
    ofParts parts = ofClasses parts.flatten :=
  List.foldl_flatten.symm

theorem indexed_ofParts (parts : List (List ClassDecl)) : (ofParts parts).Indexed := by
  rw [ofParts_eq_ofClasses]
  exact indexed_ofClasses parts.flatten

/-! ### Look-up -/

/-- The class at the place of a name is the one of that name. -/
theorem Indexed.getElem?_byName (h : m.Indexed) {name : String}
    (hplace : m.byName.get? name = some place) :
    m.classes[place]? = some c ↔ c ∈ m.classes ∧ c.name = name := by
  have hname : m.names[place]? = some name := (h.byName name place).1 hplace
  rw [names, List.getElem?_map, Option.map_eq_some_iff] at hname
  obtain ⟨found, hfound, hname⟩ := hname
  rw [hfound, Option.some.injEq]
  constructor
  · rintro rfl
    exact ⟨List.mem_of_getElem? hfound, hname⟩
  · rintro ⟨hmem, rfl⟩
    exact List.inj_on_of_nodup_map h.names_nodup (List.mem_of_getElem? hfound) hmem hname

/-- Exactly one class has an unqualified name if any class that has it is the same. -/
theorem Indexed.count_simpleNames (h : m.Indexed) {name : String} (hc : c ∈ m.classes)
    (hname : c.simpleName = name) :
    m.simpleNames.count name = 1 ↔ ∀ d ∈ m.classes, d.simpleName = name → d = c := by
  have hcount : m.simpleNames.count name =
      (m.classes.filter fun d => d.simpleName == name).length := by
    rw [simpleNames, List.count_eq_length_filter, List.filter_map, List.length_map]
    rfl
  have hmem : ∀ d, d ∈ m.classes.filter (fun d => d.simpleName == name) ↔
      d ∈ m.classes ∧ d.simpleName = name := by
    intro d
    rw [List.mem_filter, beq_iff_eq]
  have hself := (hmem c).2 ⟨hc, hname⟩
  rw [hcount]
  constructor
  · intro hone d hd hdname
    obtain ⟨e, he⟩ := List.length_eq_one_iff.1 hone
    have hother := (hmem d).2 ⟨hd, hdname⟩
    rw [he, List.mem_singleton] at hself hother
    rw [hother, hself]
  · -- Classes do not repeat, so the ones with this name are that one class, once.
    intro hunique
    have hnodup : (m.classes.filter fun d => d.simpleName == name).Nodup :=
      (List.Nodup.of_map _ h.names_nodup).filter _
    have hsub : m.classes.filter (fun d => d.simpleName == name) ⊆ [c] := by
      intro d hd
      obtain ⟨hd, hdname⟩ := (hmem d).1 hd
      exact List.mem_singleton.2 (hunique d hd hdname)
    have hle := (List.subperm_of_subset hnodup hsub).length_le
    have hpos := List.length_pos_of_mem hself
    rw [List.length_singleton] at hle
    omega

/-- What an unqualified name leads to is the only class that has it. -/
theorem Indexed.getElem?_bySimpleName (h : m.Indexed) {name : String} :
    (∃ place, m.bySimpleName.get? name = some (some place) ∧ m.classes[place]? = some c) ↔
      c ∈ m.classes ∧ c.simpleName = name ∧ ∀ d ∈ m.classes, d.simpleName = name → d = c := by
  have hsimple : ∀ place : Nat, m.classes[place]? = some c →
      (m.simpleNames[place]? = some name ↔ c.simpleName = name) := by
    intro place hplace
    simp [simpleNames, hplace]
  constructor
  · rintro ⟨place, hget, hplace⟩
    obtain ⟨hname, hone⟩ := (h.bySimpleName.single name place).1 hget
    have hc := List.mem_of_getElem? hplace
    have hname := (hsimple place hplace).1 hname
    exact ⟨hc, hname, (h.count_simpleNames hc hname).1 hone⟩
  · rintro ⟨hc, hname, hunique⟩
    obtain ⟨place, hplace⟩ := List.mem_iff_getElem?.1 hc
    refine ⟨place, (h.bySimpleName.single name place).2 ⟨?_, ?_⟩, hplace⟩
    · exact (hsimple place hplace).2 hname
    · exact (h.count_simpleNames hc hname).2 hunique

theorem Indexed.get?_byName_eq_none_iff (h : m.Indexed) {name : String} :
    m.byName.get? name = none ↔ ∀ d ∈ m.classes, d.name ≠ name := by
  simp only [h.byName.get?_eq_none_iff, names, List.mem_map, not_exists, not_and, ne_eq]

/-! ### Resolution -/

section

variable {reference : String}

theorem unnamable_iff {name : String} :
    (name = "" || name.toList.any fun c => c == '<' || c == '[') = true ↔ Unnamable name := by
  simp only [Unnamable, Bool.or_eq_true, decide_eq_true_eq, List.any_eq_true, beq_iff_eq,
    and_or_left, exists_or, exists_eq_right]

theorem resolve?_of_unnamable (h : Unnamable (Text.trim reference)) :
    m.resolve? reference = none := by
  unfold resolve?
  exact if_pos (unnamable_iff.2 h)

theorem resolve?_of_byName (h : ¬Unnamable (Text.trim reference))
    (hplace : m.byName.get? (Text.trim reference) = some place) :
    m.resolve? reference = m.classes[place]? := by
  simp only [resolve?, unnamable_iff, h, if_false, hplace]

theorem resolve?_of_bySimpleName (h : ¬Unnamable (Text.trim reference))
    (hnone : m.byName.get? (Text.trim reference) = none) :
    m.resolve? reference = some c ↔ '.' ∉ (Text.trim reference).toList ∧
      ∃ place, m.bySimpleName.get? (Text.trim reference) = some (some place) ∧
        m.classes[place]? = some c := by
  simp only [resolve?, unnamable_iff, h, if_false, hnone, List.contains_iff_mem]
  generalize Text.trim reference = name
  by_cases hdot : '.' ∈ name.toList
  · simp [hdot]
  · simp only [hdot, if_false, not_false_eq_true, true_and]
    rcases m.bySimpleName.get? name with _ | _ | place <;> simp

/-- Resolution finds the class that a reference names, if it names one. -/
theorem Indexed.resolve?_eq_some_iff (h : m.Indexed) (reference : String) (c : ClassDecl) :
    m.resolve? reference = some c ↔
      ¬Unnamable (Text.trim reference) ∧ m.Denotes (Text.trim reference) c := by
  by_cases hname : Unnamable (Text.trim reference)
  · simp [resolve?_of_unnamable hname, hname]
  · simp only [hname, not_false_eq_true, true_and, Denotes]
    cases hplace : m.byName.get? (Text.trim reference) with
    | some place =>
      have hnamed : ¬∀ d ∈ m.classes, d.name ≠ Text.trim reference := by
        rw [← h.get?_byName_eq_none_iff, hplace]
        exact Option.some_ne_none place
      rw [resolve?_of_byName hname hplace, h.getElem?_byName hplace]
      simp only [hnamed, false_and, or_false]
    | none =>
      have hnone := h.get?_byName_eq_none_iff.1 hplace
      rw [resolve?_of_bySimpleName hname hplace, h.getElem?_bySimpleName]
      constructor
      · rintro ⟨hdot, hc, hsimple, hunique⟩
        exact ⟨hc, .inr ⟨hnone, hdot, hsimple, hunique⟩⟩
      · rintro ⟨hc, hsame | ⟨-, hdot, hsimple, hunique⟩⟩
        · exact absurd hsame (hnone c hc)
        · exact ⟨hdot, hc, hsimple, hunique⟩

end

/-- However a model was put together from parts, it is the model of the classes in all of them. Its
classes have distinct names, its indexes say where these and the unqualified names stand, and
resolution finds for every reference what it stands for, blanks around it aside. -/
theorem resolve?_ofParts (parts : List (List ClassDecl)) :
    ofParts parts = ofClasses parts.flatten ∧ (ofParts parts).Indexed ∧
      ∀ reference c, (ofParts parts).resolve? reference = some c ↔
        ¬Unnamable (Text.trim reference) ∧ (ofParts parts).Denotes (Text.trim reference) c :=
  ⟨ofParts_eq_ofClasses parts, indexed_ofParts parts,
    (indexed_ofParts parts).resolve?_eq_some_iff⟩

/-- Of two classes with one unqualified name, that name alone stands for the one in no package. -/
example : ((ofParts [[⟨"a.User", none, [], [], []⟩], [⟨"User", none, [], [], []⟩]]).resolve?
    " User ").map (·.name) = some "User" := by
  decide +kernel

end SqlMapper.TypeModel

import SqlMapper.Proofs.Completion.Bindings
import SqlMapper.Proofs.Model.FirstOfEach

/-!
# Bindings of members

Behind a name stand the members of its type. Inherited fields, properties that several methods give
access to and properties with the name of a field are left out in three places; all three come to the
same as adding every member in turn, own ones before inherited ones and fields before properties, and
keeping the first of each name.

## Main definitions

* `Bindings.addMembers`: more members, of which those with a known name are left out.

## Main statements

* `Bindings.addMembers_firstOfEach`: repetitions do not matter.
* `Bindings.get?_addMembers`, `Bindings.keys_addMembers`: types and names of members.
* `Bindings.ofMembers_eq_addMembers`: the members of a class, none left out before.
* `Bindings.ofMembers_introspector`: the first declaration of a name decides.
-/

namespace SqlMapper

namespace Bindings

/-- The table with more members, in turn; those whose name it has already are left out. -/
def addMembers (table : Bindings) (members : List Member) : Bindings :=
  members.foldl (fun table member => table.insertNew member.name member.typeName) table

variable {table : Bindings} {members : List Member}

theorem insertNew_of_mem {name : String} (h : name ∈ table.keys) (typeName : String) :
    table.insertNew name typeName = table := by
  rw [Table.insertNew, if_pos (Table.contains_iff_mem_keys.2 h)]

theorem insertNew_of_not_mem {name : String} (h : name ∉ table.keys) (typeName : String) :
    table.insertNew name typeName = table.insert name typeName := by
  rw [Table.insertNew, if_neg (mt Table.contains_iff_mem_keys.1 h)]

theorem keys_insertNew (table : Bindings) (name typeName : String) :
    (table.insertNew name typeName).keys =
      if name ∈ table.keys then table.keys else table.keys ++ [name] := by
  by_cases h : name ∈ table.keys
  · rw [insertNew_of_mem h, if_pos h]
  · rw [insertNew_of_not_mem h, Table.keys_insert]

theorem mem_keys_insertNew {name typeName x : String} :
    x ∈ (table.insertNew name typeName).keys ↔ x = name ∨ x ∈ table.keys := by
  rw [keys_insertNew]
  split
  · next h =>
    constructor
    · exact .inr
    · rintro (rfl | hx)
      · exact h
      · exact hx
  · rw [List.mem_append, List.mem_singleton, or_comm]

/-! ### Adding members in turn -/

theorem addMembers_firstOfEach {seen : List String} (hseen : ∀ x ∈ seen, x ∈ table.keys) :
    addMembers table (firstOfEach (·.name) seen members) = addMembers table members := by
  induction members generalizing table seen with
  | nil => rfl
  | cons member members ih =>
    by_cases hmember : member.name ∈ seen
    · rw [firstOfEach_cons_of_mem hmember, ih hseen, addMembers, addMembers, List.foldl_cons,
        insertNew_of_mem (hseen _ hmember)]
    · rw [firstOfEach_cons_of_not_mem hmember]
      refine ih fun x hx => ?_
      rw [mem_keys_insertNew]
      exact (List.mem_cons.1 hx).imp_right (hseen x)

/-- Members with new and different names can as well replace what is there. -/
theorem foldl_insert_eq_addMembers (hnodup : (members.map (·.name)).Nodup)
    (hnew : ∀ member ∈ members, member.name ∉ table.keys) :
    members.foldl (fun table member => table.insert member.name member.typeName) table =
      addMembers table members := by
  induction members generalizing table with
  | nil => rfl
  | cons member members ih =>
    rw [List.map_cons, List.nodup_cons] at hnodup
    have hfirst := hnew member List.mem_cons_self
    have hrest : ∀ other ∈ members, other.name ∉
        (table.insertNew member.name member.typeName).keys := by
      intro other hother
      rw [mem_keys_insertNew, not_or]
      refine ⟨fun hsame => hnodup.1 ?_, hnew other (List.mem_cons_of_mem member hother)⟩
      exact hsame ▸ List.mem_map_of_mem hother
    rw [List.foldl_cons, ← insertNew_of_not_mem hfirst, ih hnodup.2 hrest]
    rfl

theorem get?_addMembers (table : Bindings) (members : List Member) (name : String) :
    (addMembers table members).get? name =
      (table.get? name).or ((members.find? (·.name = name)).map (·.typeName)) := by
  induction members generalizing table with
  | nil => simp [addMembers]
  | cons member members ih =>
    have hfirst : addMembers table (member :: members) =
        addMembers (table.insertNew member.name member.typeName) members := rfl
    rw [hfirst, ih, Table.get?_insertNew]
    by_cases hname : member.name = name
    · subst hname
      cases table.get? member.name <;> simp
    · simp [hname, Ne.symm hname]

theorem keys_addMembers (members : List Member) :
    (addMembers Table.empty members).keys = (members.map (·.name)).eraseDups := by
  induction members using List.reverseRecOn with
  | nil => rfl
  | append_singleton members member ih =>
    have hlast : addMembers Table.empty (members ++ [member]) =
        (addMembers Table.empty members).insertNew member.name member.typeName := by
      rw [addMembers, List.foldl_append]
      rfl
    rw [hlast, keys_insertNew, ih, List.map_append, List.map_singleton, eraseDups_concat]
    simp only [List.mem_eraseDups]

end Bindings

/-! ### Fields and properties -/

namespace TypeModel

/-- The fields that are met from a class on upwards. -/
def fieldsAbove (m : TypeModel) (c : ClassDecl) : List FieldDecl :=
  (c :: m.supertypes c).flatMap (·.fields)

/-- The methods without parameters that return something, from a class on upwards. -/
def gettersAbove (m : TypeModel) (c : ClassDecl) : List MethodDecl :=
  ((c :: m.supertypes c).flatMap (·.methods)).filter fun method =>
    method.parameters = [] ∧ method.returnType.isSome

@[simp]
theorem introspector_fields (m : TypeModel) (reference : String) :
    m.introspector.fields reference = m.fieldMembers reference := by
  simp only [introspector]

@[simp]
theorem introspector_accessors (m : TypeModel) (reference : String) :
    m.introspector.accessors reference = m.accessorMembers reference := by
  simp only [introspector]

theorem property?_eq_some_iff {method : MethodDecl} {member : Member} :
    property? method = some member ↔ method.parameters = [] ∧
      propertyOfAccessor? method.name = some member.name ∧
        method.returnType = some member.typeName := by
  unfold property?
  cases method.parameters with
  | cons p ps => simp
  | nil =>
    cases propertyOfAccessor? method.name with
    | none => simp
    | some name =>
      cases method.returnType with
      | none => simp
      | some typeName =>
        obtain ⟨memberName, memberType⟩ := member
        simp

theorem map_name_property? (method : MethodDecl) :
    (property? method).map (·.name) =
      if method.parameters = [] ∧ method.returnType.isSome then propertyOfAccessor? method.name
      else none := by
  unfold property?
  cases method.parameters with
  | cons p ps => simp
  | nil => cases propertyOfAccessor? method.name <;> cases method.returnType <;> simp

theorem map_name_filterMap_property? (methods : List MethodDecl) :
    (methods.filterMap property?).map (·.name) =
      (methods.filter fun method => method.parameters = [] ∧ method.returnType.isSome).filterMap
        fun method => propertyOfAccessor? method.name := by
  rw [List.map_filterMap, List.filterMap_filter]
  congr 1
  funext method
  rw [map_name_property?]
  simp

theorem find?_filterMap_property? (methods : List MethodDecl) (name : String) :
    ((methods.filterMap property?).find? (·.name = name)).map (·.typeName) =
      ((methods.filter fun method => method.parameters = [] ∧ method.returnType.isSome).find?
        fun method => propertyOfAccessor? method.name = some name).bind (·.returnType) := by
  induction methods with
  | nil => rfl
  | cons method methods ih =>
    cases hproperty : property? method with
    | some member =>
      obtain ⟨hparameters, hname, htype⟩ := property?_eq_some_iff.1 hproperty
      rw [List.filterMap_cons_some hproperty, List.filter_cons_of_pos (by simp [hparameters, htype])]
      by_cases hsame : member.name = name
      · simp [hname, htype, hsame]
      · simpa [hname, hsame] using ih
    | none =>
      rw [List.filterMap_cons_none hproperty, ih]
      by_cases hgetter : method.parameters = [] ∧ method.returnType.isSome = true
      · have hname : propertyOfAccessor? method.name = none := by
          have hmap := map_name_property? method
          rwa [hproperty, if_pos hgetter, eq_comm] at hmap
        rw [List.filter_cons_of_pos (by simpa using hgetter)]
        simp [hname]
      · rw [List.filter_cons_of_neg (by simpa using hgetter)]

end TypeModel

namespace Bindings

/-! ### The members of a class -/

variable {m : TypeModel} {reference : String} {c : ClassDecl}

/-- The members of a class are its fields and its properties, own and inherited, as they come. -/
theorem ofMembers_eq_addMembers (h : m.resolve? reference = some c) :
    ofMembers m.introspector reference = addMembers Table.empty
      ((m.fieldsAbove c).map (fun f => ⟨f.name, f.typeName⟩) ++
        (m.allMethods c).filterMap TypeModel.property?) := by
  have hfields : m.introspector.fields reference = firstOfEach (·.name) []
      ((m.fieldsAbove c).map fun f => ⟨f.name, f.typeName⟩) := by
    rw [TypeModel.introspector_fields, TypeModel.fieldMembers, h, firstOfEach_map]
    rfl
  have haccessors : m.introspector.accessors reference = firstOfEach (·.name) []
      ((m.allMethods c).filterMap TypeModel.property?) := by
    rw [TypeModel.introspector_accessors, TypeModel.accessorMembers, h]
  have hnone : ∀ table : Bindings, ∀ x ∈ ([] : List String), x ∈ table.keys := by simp
  rw [ofMembers, hfields, haccessors,
    foldl_insert_eq_addMembers (nodup_keys_firstOfEach _ _) fun _ _ hmem => List.not_mem_nil hmem,
    addMembers_firstOfEach (hnone _)]
  change addMembers (addMembers Table.empty _) (firstOfEach _ _ _) = _
  rw [addMembers_firstOfEach (hnone _), addMembers, addMembers, addMembers, List.foldl_append]

/-- The first declaration of a name decides on its type: that of a field if there is one, own or
inherited, and else that of a method without parameters that returns the property. Fields are listed
before properties, each in the order in which their names come up first. A type that is not in the
model has no members. -/
theorem ofMembers_introspector (m : TypeModel) (reference : String) :
    (∀ c, m.resolve? reference = some c →
      (∀ name, (ofMembers m.introspector reference).get? name =
        (((m.fieldsAbove c).find? (·.name = name)).map (·.typeName)).or
          (((m.gettersAbove c).find? fun method =>
            propertyOfAccessor? method.name = some name).bind (·.returnType))) ∧
      (ofMembers m.introspector reference).keys =
        ((m.fieldsAbove c).map (·.name)).eraseDups ++
          (((m.gettersAbove c).filterMap fun method => propertyOfAccessor? method.name).filter
            (· ∉ (m.fieldsAbove c).map (·.name))).eraseDups) ∧
    (m.resolve? reference = none → ofMembers m.introspector reference = Table.empty) := by
  refine ⟨fun c hc => ⟨fun name => ?_, ?_⟩, fun hnone => ?_⟩
  · rw [ofMembers_eq_addMembers hc, get?_addMembers, Table.get?_empty, Option.none_or,
      List.find?_append, Option.map_or, List.find?_map, Option.map_map,
      TypeModel.find?_filterMap_property?]
    rfl
  · have hnames : ((m.fieldsAbove c).map fun f => (⟨f.name, f.typeName⟩ : Member)).map (·.name) =
        (m.fieldsAbove c).map (·.name) := List.map_map
    rw [ofMembers_eq_addMembers hc, keys_addMembers, List.map_append, hnames,
      TypeModel.map_name_filterMap_property?, List.eraseDups_append, List.removeAll]
    simp only [List.elem_eq_mem, decide_not]
    rfl
  · simp [ofMembers, TypeModel.fieldMembers, TypeModel.accessorMembers, hnone]

/-- A class with accessors for a field and a property that it inherits. -/
def leafClass : ClassDecl where
  name := "a.Leaf"
  superclass := some "Stem"
  fields := [⟨"own", "int"⟩]
  methods := [{ name := "getLabel", returnType := some "Leaf" },
    { name := "getSize", returnType := some "Leaf" }, { name := "isDone" }]

/-- The class that it inherits from. -/
def stemClass : ClassDecl where
  name := "a.Stem"
  fields := [⟨"label", "Stem"⟩, ⟨"own", "Stem"⟩]
  methods := [{ name := "isSize", returnType := some "Stem" },
    { name := "getAge", returnType := some "Stem" }]

/-- An inherited field hides an own accessor, and an own accessor hides an inherited one. -/
theorem ofMembers_introspector_leaf :
    (TypeModel.ofClasses [stemClass, leafClass]).resolve? "Leaf" = some leafClass ∧
      let table := ofMembers (TypeModel.ofClasses [stemClass, leafClass]).introspector "Leaf"
      table.keys = ["own", "label", "size", "age"] ∧ table.get? "own" = some "int" ∧
        table.get? "label" = some "Stem" ∧ table.get? "size" = some "Leaf" ∧
        table.get? "done" = none := by
  have hleaf : (TypeModel.ofClasses [stemClass, leafClass]).resolve? "Leaf" = some leafClass := by
    decide +kernel
  obtain ⟨hget, hkeys⟩ := (ofMembers_introspector _ "Leaf").1 leafClass hleaf
  refine ⟨hleaf, ?_⟩
  simp only [hkeys, hget]
  decide +kernel

end Bindings

end SqlMapper

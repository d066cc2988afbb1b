import Mathlib.Data.List.Induction
import SqlMapper.Files.Tree
import SqlMapper.Model.Reader
import SqlMapper.Proofs.Model.FirstOfEach
import SqlMapper.Proofs.Model.Index

/-!
# Merging type models

A model made of some classes keeps one class for each name, in the place of the first that came in
and as the last one declared it. Such a model can stand for the classes that it was made of: merged
into another model it leaves the same classes, in the same order and under the same indexes, as they
do one by one. So it makes no difference how classes are spread over files.

## Main definitions

* `TypeModel.classesIn?`: the classes in the text of a file.
* `TypeModel.Declares`: a file that can be read and declares some classes.

## Main statements

* `TypeModel.Indexed.add_add_comm`: a known class and another one can be added in any order.
* `TypeModel.Indexed.extend_ofClasses`: a model stands for the classes that it was made of.
* `TypeModel.load_declared`: files are merged as if they were one.
-/

namespace SqlMapper.TypeModel

variable {m n : TypeModel} {b c : ClassDecl} {place : Nat}

theorem extend_append (m : TypeModel) (as bs : List ClassDecl) :
    m.extend (as ++ bs) = (m.extend as).extend bs :=
  List.foldl_append

theorem ofClasses_concat (classes : List ClassDecl) (c : ClassDecl) :
    ofClasses (classes ++ [c]) = (ofClasses classes).add c :=
  extend_append empty classes [c]

/-! ### One class after another -/

/-- Of two classes with one name the second one stays. -/
theorem add_add_of_name_eq (h : b.name = c.name) : (m.add b).add c = m.add c := by
  have hsimple : b.simpleName = c.simpleName := by
    rw [ClassDecl.simpleName, ClassDecl.simpleName, h]
  cases hplace : m.byName.get? c.name with
  | some place => simp [add, h, hplace]
  | none => simp [add, h, hsimple, hplace, Table.get?_insert]

theorem Indexed.exists_place (h : m.Indexed) (hc : c.name ∈ m.names) :
    ∃ place, m.byName.get? c.name = some place ∧ place < m.classes.length := by
  obtain ⟨place, hplace⟩ := List.mem_iff_getElem?.1 hc
  obtain ⟨hlt, -⟩ := List.getElem?_eq_some_iff.1 hplace
  rw [names, List.length_map] at hlt
  exact ⟨place, (h.byName c.name place).2 hplace, hlt⟩

/-- A class that is known and one of another name can be added in any order: the one has its place
already, and the other gets or keeps its own. -/
theorem Indexed.add_add_comm (h : m.Indexed) (hc : c.name ∈ m.names) (hne : b.name ≠ c.name) :
    (m.add b).add c = (m.add c).add b := by
  obtain ⟨place, hplace, hlt⟩ := h.exists_place hc
  cases hother : m.byName.get? b.name with
  | some other =>
    have hplaces : place ≠ other := by
      rintro rfl
      have hnames := ((h.byName _ _).1 hother).symm.trans ((h.byName _ _).1 hplace)
      exact hne (Option.some.inj hnames)
    simp [TypeModel.add, hplace, hother, List.set_comm _ _ hplaces]
  | none =>
    simp [TypeModel.add, hplace, hother, Table.get?_insert, Ne.symm hne, List.set_append_left _ _ hlt]

/-- A class goes behind the others if its name is new, and else into the place of that name. -/
theorem Indexed.classes_add (h : m.Indexed) (c : ClassDecl) :
    (∀ d ∈ m.classes, d.name ≠ c.name) ∧ (m.add c).classes = m.classes ++ [c] ∨
      ∃ front b back, m.classes = front ++ b :: back ∧ b.name = c.name ∧
        (∀ d ∈ front ++ back, d.name ≠ c.name) ∧ (m.add c).classes = front ++ c :: back := by
  by_cases hc : c.name ∈ m.names
  · obtain ⟨b, hb, hname⟩ := List.mem_map.1 hc
    obtain ⟨front, back, hclasses⟩ := List.append_of_mem hb
    have hnames : m.names = front.map (·.name) ++ c.name :: back.map (·.name) := by
      simp [names, hclasses, hname]
    have hplace : m.byName.get? c.name = some front.length := by
      rw [h.byName, hnames]
      simp
    have hnodup := h.names_nodup
    rw [hnames, List.nodup_middle, List.nodup_cons, ← List.map_append] at hnodup
    refine .inr ⟨front, b, back, hclasses, hname, fun d hd hsame => ?_, ?_⟩
    · exact hnodup.1 (hsame ▸ List.mem_map_of_mem hd)
    · simp [TypeModel.add, hplace, hclasses]
  · have hnone := h.byName.get?_eq_none_iff.2 hc
    refine .inl ⟨h.get?_byName_eq_none_iff.1 hnone, ?_⟩
    rw [TypeModel.add, hnone]

theorem Indexed.names_add (h : m.Indexed) (c : ClassDecl) :
    (m.add c).names = if c.name ∈ m.names then m.names else m.names ++ [c.name] := by
  obtain ⟨hnew, hadd⟩ | ⟨front, b, back, hclasses, hname, -, hadd⟩ := h.classes_add c
  · have hnot : c.name ∉ m.names := by simpa [names] using hnew
    rw [if_neg hnot, names, hadd]
    simp [names]
  · have hmem : c.name ∈ m.names := by simp [names, hclasses, hname]
    rw [if_pos hmem, names, names, hadd, hclasses]
    simp [hname]

theorem Indexed.extend_add (h : m.Indexed) (hc : c.name ∈ m.names) {classes : List ClassDecl}
    (hother : ∀ d ∈ classes, d.name ≠ c.name) :
    (m.extend classes).add c = (m.add c).extend classes := by
  induction classes generalizing m with
  | nil => rfl
  | cons b classes ih =>
    obtain ⟨hb, hrest⟩ := List.forall_mem_cons.1 hother
    have hmem : c.name ∈ (m.add b).names := by
      rw [h.names_add]
      split <;> simp [hc]
    have hcomm := h.add_add_comm hc hb
    calc ((m.add b).extend classes).add c
      _ = ((m.add b).add c).extend classes := ih (h.add b) hmem hrest
      _ = ((m.add c).add b).extend classes := by rw [hcomm]

/-! ### A model in place of its classes -/

/-- A class that came in last might have come in where its name did. -/
theorem Indexed.extend_replace (h : m.Indexed) (hname : b.name = c.name)
    (front : List ClassDecl) {back : List ClassDecl} (hback : ∀ d ∈ back, d.name ≠ c.name) :
    m.extend (front ++ c :: back) = (m.extend (front ++ b :: back)).add c := by
  have hmem : c.name ∈ ((m.extend front).add b).names := by
    rw [(h.extend front).names_add, hname]
    split
    · assumption
    · simp
  calc m.extend (front ++ c :: back)
    _ = ((m.extend front).add c).extend back := extend_append m front (c :: back)
    _ = (((m.extend front).add b).add c).extend back := by rw [add_add_of_name_eq hname]
    _ = (((m.extend front).add b).extend back).add c :=
      (((h.extend front).add b).extend_add hmem hback).symm
    _ = (m.extend (front ++ b :: back)).add c := by
      rw [extend_append m front (b :: back)]
      rfl

theorem Indexed.extend_classes_add (h : m.Indexed) (hn : n.Indexed) (c : ClassDecl) :
    m.extend (n.add c).classes = (m.extend n.classes).add c := by
  obtain ⟨-, hadd⟩ | ⟨front, b, back, hclasses, hname, hother, hadd⟩ := hn.classes_add c
  · rw [hadd]
    exact extend_append m n.classes [c]
  · have hback : ∀ d ∈ back, d.name ≠ c.name := fun d hd =>
      hother d (List.mem_append_right front hd)
    rw [hadd, hclasses, h.extend_replace hname front hback]

/-- Merging the model of some classes is adding these classes. -/
theorem Indexed.extend_ofClasses (h : m.Indexed) (classes : List ClassDecl) :
    m.extend (ofClasses classes).classes = m.extend classes := by
  induction classes using List.reverseRecOn with
  | nil => rfl
  | append_singleton classes c ih =>
    rw [ofClasses_concat, h.extend_classes_add (indexed_ofClasses classes), ih, extend_append]
    rfl

/-! ### The classes of a model -/

theorem names_ofClasses (classes : List ClassDecl) :
    (ofClasses classes).names = (classes.map (·.name)).eraseDups := by
  induction classes using List.reverseRecOn with
  | nil => rfl
  | append_singleton classes c ih =>
    rw [ofClasses_concat, (indexed_ofClasses classes).names_add, List.map_append,
      List.map_singleton, eraseDups_concat, ih]
    simp only [List.mem_eraseDups]

/-- Each class is as the last one of its name declares it. -/
theorem find?_reverse_of_mem_ofClasses {classes : List ClassDecl}
    (h : c ∈ (ofClasses classes).classes) :
    classes.reverse.find? (fun d => d.name = c.name) = some c := by
  induction classes using List.reverseRecOn with
  | nil => cases h
  | append_singleton classes d ih =>
    rw [ofClasses_concat] at h
    have hcases : c = d ∨ c ∈ (ofClasses classes).classes ∧ c.name ≠ d.name := by
      obtain ⟨hnew, hadd⟩ | ⟨front, b, back, hclasses, -, hother, hadd⟩ :=
        (indexed_ofClasses classes).classes_add d
      · rw [hadd] at h
        grind
      · rw [hadd] at h
        rw [hclasses]
        grind
    rw [List.reverse_concat, List.find?_cons]
    rcases hcases with rfl | ⟨hc, hne⟩
    · simp
    · simp [Ne.symm hne, ih hc]

/-! ### Files -/

/-- The classes in the text of a file, in the format that the name of the file stands for. -/
def classesIn? (path text : String) : Option (List ClassDecl) :=
  match Path.extension? path with
  | some "json" => classesOfJson? text
  | some "yml" | some "yaml" => classesOfYaml? text
  | _ => none

/-- The file can be read, and these are the classes in it. -/
def Declares (access : FileAccess Id) (path : String) (classes : List ClassDecl) : Prop :=
  ∃ text, (access.read path).run = .ok text ∧ classesIn? path text = some classes

variable {access : FileAccess Id}

theorem ofText_of_classesIn? {path text : String} {classes : List ClassDecl}
    (h : classesIn? path text = some classes) : ofText path text = .ok (ofClasses classes) := by
  unfold classesIn? at h
  split at h
  case h_1 hformat => simp [ofText, hformat, ofJson, h, ofReading]
  case h_2 hformat | h_3 hformat => simp [ofText, hformat, ofYaml, h, ofReading]
  case h_4 => cases h

theorem Declares.loadFile_eq {path : String} {classes : List ClassDecl}
    (h : Declares access path classes) :
    (loadFile access path).run = .ok (ofClasses classes) := by
  obtain ⟨text, hread, hclasses⟩ := h
  simp [loadFile, hread, ofText_of_classesIn? hclasses]

/-- What one more file adds, and what all of them add. -/
theorem Indexed.mergeFiles_eq {paths : List String} {parts : List (List ClassDecl)}
    (hfiles : List.Forall₂ (Declares access) paths parts) (h : m.Indexed) :
    (mergeFiles access m paths).run = .ok (m.extend parts.flatten) := by
  induction hfiles generalizing m with
  | nil => rfl
  | cons hfile _ ih =>
    rw [mergeFiles, Id.run_bind, hfile.loadFile_eq, List.flatten_cons, extend_append]
    dsimp only
    rw [h.extend_ofClasses, ih (h.extend _)]

/-- Files that can be read and declare classes give the model of all their classes. It has one class
for each name, in the order in which the names come up first, and as the last class of that name
declares it. -/
theorem load_declared {paths : List String} {parts : List (List ClassDecl)}
    (hfiles : List.Forall₂ (Declares access) paths parts) :
    (load access paths).run = .ok (ofClasses parts.flatten) ∧
      (ofClasses parts.flatten).names = (parts.flatten.map (·.name)).eraseDups ∧
      (∀ c ∈ (ofClasses parts.flatten).classes,
        parts.flatten.reverse.find? (fun d => d.name = c.name) = some c) ∧
      ∀ (m : TypeModel) (as bs : List ClassDecl),
        (m.extend as).extend bs = m.extend (as ++ bs) := by
  refine ⟨indexed_empty.mergeFiles_eq hfiles, names_ofClasses _, ?_, ?_⟩
  · intro c hc
    exact find?_reverse_of_mem_ofClasses hc
  · intro m as bs
    exact (extend_append m as bs).symm

/-- A text that declares a class twice. -/
def repeatedJson : String :=
  "\x7b\"types\": [\x7b\"name\": \"User\"\x7d, \x7b\"name\": \"a.User\"\x7d, " ++
    "\x7b\"name\": \"User\", \"superclass\": \"Base\"\x7d]\x7d"

/-- A text that declares another one of these classes again, behind a new one. -/
def overlappingYaml : String :=
  "types:\n- name: Base\n- name: a.User\n  superclass: User\n"

/-- Two files with these texts. -/
def overlappingFiles : FileTree :=
  FileTree.empty
    |>.write ["w", "a.json"] repeatedJson.toUTF8
    |>.write ["w", "b.yml"] overlappingYaml.toUTF8

/-- Three names are declared five times, within a file and across files. -/
theorem load_declared_overlapping :
    ∃ model, (load (overlappingFiles.access "/") ["/w/a.json", "/w/b.yml"]).run = .ok model ∧
      model.names = ["User", "a.User", "Base"] ∧
      model.classes = [⟨"User", some "Base", [], [], []⟩, ⟨"a.User", some "User", [], [], []⟩,
        ⟨"Base", none, [], [], []⟩] := by
  have hfiles : List.Forall₂ (Declares (overlappingFiles.access "/")) ["/w/a.json", "/w/b.yml"]
      [[⟨"User", none, [], [], []⟩, ⟨"a.User", none, [], [], []⟩,
          ⟨"User", some "Base", [], [], []⟩],
        [⟨"Base", none, [], [], []⟩, ⟨"a.User", some "User", [], [], []⟩]] :=
    .cons ⟨repeatedJson, by decide +kernel, by decide +kernel⟩
      (.cons ⟨overlappingYaml, by decide +kernel, by decide +kernel⟩ .nil)
  obtain ⟨hload, hnames, -⟩ := load_declared hfiles
  exact ⟨_, hload, hnames.trans (by decide +kernel), by decide +kernel⟩

end SqlMapper.TypeModel

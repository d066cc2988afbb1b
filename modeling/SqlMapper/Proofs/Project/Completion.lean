import SqlMapper.Project.Completion
import SqlMapper.Proofs.Chars.Cut
import SqlMapper.Proofs.Completion.Offer
import SqlMapper.Proofs.Project.Reachable

/-!
# Completion of parameters in a project

At a position of a file lies at most one statement, and it belongs to at most one method. The
names offered there at the start of a path are those under which the parameters of this method
can be used, and no others.

## Main definitions

* `StandsFor`: a name stands for a qualified name.
* `ParameterDecl.effectiveName?`: the name under which a declared parameter can be used.
* `Project.methodAt?`: the method that the statement at a position belongs to.
* `Project.fragmentAt`: the text being typed at a position.

## Main statements

* `isRenaming_iff`: the annotation that renames parameters is told by its qualified name.
* `Project.completions?_eq_complete`: how the parts of an answer fit together.
* `Project.completions?_parameters`: the parameters offered at a position.
-/

namespace SqlMapper

/-- A name stands for a qualified one if it is the same, or if it has no dots and is what the other
has behind a dot at the end. -/
def StandsFor (name qualified : String) : Prop :=
  name = qualified ∨ '.' ∉ name.toList ∧ ∃ package, qualified = package ++ "." ++ name

theorem eq_simpleName_iff {name qualified : String} (hdots : '.' ∉ name.toList) :
    name = simpleName qualified ↔ StandsFor name qualified := by
  have hplain : ∀ c ∈ name.toList, (c == '.') = false := fun c hc =>
    beq_false_of_ne (ne_of_mem_of_not_mem hc hdots)
  rw [← String.toList_inj, simpleName, String.toList_ofList]
  constructor
  · intro hname
    obtain hall | ⟨front, c, hc, hsplit⟩ := Chars.afterLast_cases (· == '.') qualified.toList
    · exact .inl (String.toList_inj.1 (hname.trans hall))
    · rw [← hname, eq_of_beq hc] at hsplit
      refine .inr ⟨hdots, String.ofList front, String.toList_inj.1 ?_⟩
      simp [hsplit]
  · rintro (rfl | ⟨-, package, rfl⟩)
    · exact (Chars.afterLast_append (· == '.') [] hplain).symm
    · have hsplit : (package ++ "." ++ name).toList = package.toList ++ '.' :: name.toList := by
        simp
      rw [hsplit, Chars.afterLast_append_cons (· == '.') _ rfl hplain]

/-- A qualified name has to be the same; of an unqualified one only the package may be missing. -/
theorem isRenaming_iff {name qualified : String} :
    isRenaming name qualified = true ↔ StandsFor name qualified := by
  unfold isRenaming
  by_cases hdots : '.' ∈ name.toList
  · rw [if_pos (List.contains_iff_mem.2 hdots), beq_iff_eq]
    exact ⟨.inl, fun h => h.resolve_right fun hother => hother.1 hdots⟩
  · rw [if_neg (mt List.contains_iff_mem.1 hdots), beq_iff_eq, eq_simpleName_iff hdots]

instance (name qualified : String) : Decidable (StandsFor name qualified) :=
  decidable_of_iff _ isRenaming_iff

/-- The name under which a declared parameter can be used: the value of its first annotation whose
name stands for the given one, unless that is empty or missing, else the declared name. Without such
an annotation there is none. -/
def ParameterDecl.effectiveName? (d : ParameterDecl) (qualified : String) : Option String := do
  let found ← d.annotations.find? fun a => StandsFor a.name qualified
  some ((found.value.filter (· ≠ "")).getD d.name)

/-- Declaring a parameter keeps its name of use. -/
theorem ParameterDecl.effectiveName?_eq (d : ParameterDecl) (qualified : String) :
    (Parameter.mk d.name d.typeName (d.rename? qualified)).effectiveName? =
      d.effectiveName? qualified := by
  have hfirst : (d.annotations.find? fun a => StandsFor a.name qualified) =
      d.annotations.find? fun a => isRenaming a.name qualified := by
    congr 1
    funext a
    rw [Bool.eq_iff_iff, decide_eq_true_iff, isRenaming_iff]
  unfold Parameter.effectiveName? ParameterDecl.effectiveName? ParameterDecl.rename?
  rw [hfirst]
  cases d.annotations.find? fun a => isRenaming a.name qualified with
  | none => rfl
  | some found =>
    cases hvalue : found.value with
    | none => simp [hvalue]
    | some value =>
      by_cases hempty : value = "" <;> simp [hvalue, hempty, Option.filter]

namespace Project

/-- The document and the offset that a position of a file stands for. -/
def caret? (p : Project) (uri : FileUri) (position : Position) : Option (Document × Nat) := do
  let entry ← p.registry.get? uri
  let document ← entry.document
  let offset ← entry.lines.offset? position
  some (document, offset)

/-- The text being typed at a position of a file. -/
def fragmentAt (p : Project) (uri : FileUri) (position : Position) : String :=
  ((p.caret? uri position).bind fun c => c.1.caretFragment? c.2).getD ""

/-- The method that the statement around a position of a file belongs to: the one that the
namespace of the document and the id of the statement name. -/
def methodAt? (p : Project) (uri : FileUri) (position : Position) : Option MethodDecl := do
  let (document, offset) ← p.caret? uri position
  let statement ← document.enclosingStatement? offset
  let namespaceName ← document.namespaceName
  p.types.mapperMethod? namespaceName statement.id

/-- The parameters declared by the method at a position of a file. -/
def parametersAt (p : Project) (uri : FileUri) (position : Position) : List ParameterDecl :=
  (p.methodAt? uri position).elim [] (·.parameters)

/-- The parameters at a position, as completion takes them. -/
def declaredAt (p : Project) (uri : FileUri) (position : Position) : List Parameter :=
  (p.methodAt? uri position).elim []
    (·.declaredParameters p.settings.markers.annotationName)

/-- Files in a language without parameters have no place for a caret. -/
theorem caret?_eq_none {p : Project} (h : p.registry.UpToDate) {uri : FileUri}
    (huri : (Language.ofUri uri).completesParameters = false) (position : Position) :
    p.caret? uri position = none := by
  unfold caret?
  cases hentry : p.registry.get? uri with
  | none => rfl
  | some entry => simp [h.document_eq_none huri hentry]

/-- The context of a position is that of its document and offset, if it has them. -/
theorem context_eq {p : Project} (h : p.registry.UpToDate) (uri : FileUri)
    (position : Position) :
    p.context uri position =
      (p.caret? uri position).elim (StatementContext.empty (Language.ofUri uri))
        fun c => StatementContext.ofDocument p.types p.settings.markers c.1 c.2 := by
  -- The language is asked first, but a file of another language has no document either.
  cases hlanguage : (Language.ofUri uri).completesParameters with
  | false => simp [context, hlanguage, caret?_eq_none h hlanguage position]
  | true =>
    simp only [context, caret?, hlanguage, Bool.not_true, Bool.false_eq_true, if_false]
    cases p.registry.get? uri with
    | none => rfl
    | some entry =>
      cases hdocument : entry.document with
      | none => simp [hdocument]
      | some document => cases hoffset : entry.lines.offset? position <;> simp [hdocument, hoffset]

/-- The parameters of a context are those of the method at its position. -/
theorem parameters_context {p : Project} (h : p.registry.UpToDate) (uri : FileUri)
    (position : Position) :
    (p.context uri position).parameters = p.declaredAt uri position := by
  rw [context_eq h, declaredAt, methodAt?]
  cases p.caret? uri position with
  | none => rfl
  | some c =>
    obtain ⟨document, offset⟩ := c
    simp only [Option.elim_some, Option.bind_eq_bind, Option.bind_some,
      StatementContext.ofDocument]
    cases document.enclosingStatement? offset with
    | none => rfl
    | some statement =>
      simp only [Option.bind_some, StatementContext.method?]
      cases document.namespaceName with
      | none => rfl
      | some namespaceName =>
        cases hmethod : p.types.mapperMethod? namespaceName statement.id <;> simp [hmethod]

/-- Where a context has parameters, its text is the one being typed and can be completed. -/
theorem fragment_context {p : Project} (h : p.registry.UpToDate) {uri : FileUri}
    {position : Position} (hparameters : (p.context uri position).parameters ≠ []) :
    (p.context uri position).caretFragment = p.fragmentAt uri position ∧
      (p.context uri position).language = .xml := by
  rw [context_eq h] at hparameters ⊢
  rw [fragmentAt]
  cases hcaret : p.caret? uri position with
  | none =>
    rw [hcaret] at hparameters
    exact absurd rfl hparameters
  | some c =>
    simp only [Option.elim_some, Option.bind_some, StatementContext.ofDocument]
    cases c.1.enclosingStatement? c.2 <;> exact ⟨rfl, rfl⟩

/-- In a file of the project the names offered are those for the parameters at the position and
the text being typed there. Every way in which nothing can be completed is a case of this: then
there are no parameters. -/
theorem completions?_eq_complete {p : Project} (h : p.registry.UpToDate) {uri : FileUri}
    (huri : p.registry.contains uri = true) (position : Position) :
    p.completions? uri position =
      some (complete p.types.introspector p.settings.markers (p.declaredAt uri position)
        (p.fragmentAt uri position ++ p.settings.markers.placeholder)) := by
  have hparameters := parameters_context h uri position
  simp only [completions?, huri, Bool.not_true, Bool.false_eq_true, if_false]
  by_cases hnone : p.declaredAt uri position = []
  · -- An empty context is answered at once; the table of no parameters is answered the same way.
    have hempty : (p.context uri position).isEmpty = true := by
      simp [StatementContext.isEmpty, hparameters, hnone]
    rw [if_pos hempty, hnone, complete_of_isEmpty _ _ _ rfl]
  · obtain ⟨hfragment, hlanguage⟩ := fragment_context h (hparameters ▸ hnone)
    have hsome : (p.context uri position).isEmpty = false := by
      simp [StatementContext.isEmpty, hparameters, hnone, hlanguage,
        Language.completesParameters]
    rw [hsome, hparameters, hfragment]
    rfl

/-- Completion takes the parameters of the method as they are declared. -/
theorem declaredAt_eq_map (p : Project) (uri : FileUri) (position : Position) :
    p.declaredAt uri position =
      (p.parametersAt uri position).map fun d =>
        Parameter.mk d.name d.typeName (d.rename? p.settings.markers.annotationName) := by
  unfold declaredAt parametersAt
  cases p.methodAt? uri position with
  | none => rfl
  | some method => rfl

/-- The names of use are those of the declared parameters. -/
theorem effectiveNames_declaredAt (p : Project) (uri : FileUri) (position : Position) :
    (p.declaredAt uri position).filterMap (·.effectiveName?) =
      (p.parametersAt uri position).filterMap
        (·.effectiveName? p.settings.markers.annotationName) := by
  rw [declaredAt_eq_map, List.filterMap_map]
  congr 1
  funext d
  exact d.effectiveName?_eq _

/-- A binding of the parameters at a position comes from a declared parameter of a method, the
last one with that name. -/
theorem exists_declared_of_mem {p : Project} {uri : FileUri} {position : Position}
    {name typeName : String}
    (h : (name, typeName) ∈ (Bindings.ofParameters (p.declaredAt uri position)).entries) :
    ∃ method before d after, p.methodAt? uri position = some method ∧
      method.parameters = before ++ d :: after ∧
      d.effectiveName? p.settings.markers.annotationName = some name ∧ d.typeName = typeName ∧
      ∀ later ∈ after,
        later.effectiveName? p.settings.markers.annotationName ≠ some name := by
  obtain ⟨before, parameter, after, hsplit, hname, htype, hlast⟩ :=
    Bindings.exists_parameter_of_mem h
  rw [declaredAt_eq_map, List.map_eq_append_iff] at hsplit
  obtain ⟨front, back, hparameters, -, hback⟩ := hsplit
  obtain ⟨d, rest, rfl, rfl, rfl⟩ := List.map_eq_cons_iff.1 hback
  rw [ParameterDecl.effectiveName?_eq] at hname
  unfold parametersAt at hparameters
  cases hmethod : p.methodAt? uri position with
  | none =>
    rw [hmethod] at hparameters
    simp at hparameters
  | some method =>
    rw [hmethod] at hparameters
    refine ⟨method, front, d, rest, rfl, hparameters, hname, htype, ?_⟩
    intro later hlater
    rw [← ParameterDecl.effectiveName?_eq]
    exact hlast _ (List.mem_map_of_mem hlater)

/-- At every position of every file of a reachable project there is a list of names. Each of its
items for a parameter bears the name under which an annotated parameter of the method at the
position can be used, and the type of the last parameter with that name. If a single name is being
typed, the list has exactly one item for each different name of use that begins with it, in the
order of the declarations, and nothing else. -/
theorem completions?_parameters {p : Project} (hp : p.Reachable) {uri : FileUri}
    (huri : p.registry.contains uri = true) (position : Position) :
    ∃ list, p.completions? uri position = some list ∧
      (∀ item ∈ list.items, item.kind = .parameter →
        ∃ method before d after, p.methodAt? uri position = some method ∧
          method.parameters = before ++ d :: after ∧
          d.effectiveName? p.settings.markers.annotationName = some item.label ∧
          d.typeName = item.detail ∧
          ∀ later ∈ after,
            later.effectiveName? p.settings.markers.annotationName ≠ some item.label) ∧
      ∀ path target,
        tokenize? p.settings.markers
            (p.fragmentAt uri position ++ p.settings.markers.placeholder) = some path →
        path.segments = [target] → 1 ≤ p.settings.markers.maxDepth →
          list.labels =
              (((p.parametersAt uri position).filterMap
                (·.effectiveName? p.settings.markers.annotationName)).eraseDups.filter
                (Text.startsWith · target)) ∧
            ∀ item ∈ list.items, item.kind = .parameter := by
  refine ⟨_, completions?_eq_complete hp.registry.upToDate huri position, ?_, ?_⟩
  · intro item hitem hkind
    exact exists_declared_of_mem (mem_bindings_of_parameter hitem hkind)
  · intro path target hpath hsegments hdepth
    rw [← effectiveNames_declaredAt, ← Bindings.keys_ofParameters]
    exact labels_complete_singleton _ _ hpath hsegments hdepth

/-- A project with one statement, whose method has two parameters that are used under the name
`u`, one under a name that begins so, and one that cannot be used. -/
def sharedName : Project :=
  let method : MethodDecl :=
    ⟨"find", none, [⟨"user", "User", [⟨"Param", some "u"⟩]⟩, ⟨"up", "Bool", []⟩,
      ⟨"unit", "Unit", [⟨"Param", some ""⟩]⟩, ⟨"u", "Item", [⟨"Param", none⟩]⟩]⟩
  ((ofSettings Settings.standard).setTypes
    (TypeModel.ofClasses [⟨"Users", none, [], [], [method]⟩])).addFile ⟨"M.xml"⟩
      "<select id='find' namespace='Users'>u</select>"

/-- Behind the `u` in the text of the statement both names of use are offered, each once. -/
theorem completions?_parameters_sharedName :
    sharedName.Reachable ∧ sharedName.registry.contains ⟨"M.xml"⟩ = true ∧
      ∃ list, sharedName.completions? ⟨"M.xml"⟩ ⟨0, 37⟩ = some list ∧
        list.labels = ["u", "unit"] ∧ ∀ item ∈ list.items, item.kind = .parameter := by
  have hp : sharedName.Reachable :=
    ((Reachable.start Settings.standard).setTypes _).addFile _ _
  have huri : sharedName.registry.contains ⟨"M.xml"⟩ = true := by decide +kernel
  obtain ⟨list, hlist, -, hsingle⟩ := completions?_parameters hp huri ⟨0, 37⟩
  have hpath : tokenize? sharedName.settings.markers
      (sharedName.fragmentAt ⟨"M.xml"⟩ ⟨0, 37⟩ ++ sharedName.settings.markers.placeholder) =
        some ⟨["u"], true⟩ := by decide +kernel
  obtain ⟨hlabels, hkinds⟩ := hsingle _ "u" hpath rfl (by decide +kernel)
  refine ⟨hp, huri, list, hlist, ?_, hkinds⟩
  rw [hlabels]
  decide +kernel

end Project

end SqlMapper

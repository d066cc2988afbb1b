import SqlMapper.Files.Access
import SqlMapper.Json.Datum
import SqlMapper.Model.Basic
import SqlMapper.Path
import SqlMapper.Yaml.Datum

/-!
# Reading type models

The classes of a type model are written in YAML or JSON files, which are merged in order: a class
that a later file declares again replaces the earlier one, in its place.

## Main definitions

* `ModelError`: why there is no type model.
* `TypeModel.ofYaml`, `TypeModel.ofJson`: the model in a text.
* `TypeModel.load`: the model in some files.
-/

namespace SqlMapper

/-- Why there is no type model to be had. -/
inductive ModelError where
  | unreadable (path : String) (reason : ReadError)
  /-- The text is not in the format of the file, or not a type model. -/
  | malformed (path : String)
  | unsupported (path : String)
  deriving Repr, DecidableEq

/-- What people are told about the reason. -/
def ModelError.message : ModelError → String
  | unreadable path reason => "Failed to read type model " ++ path ++ ": " ++ reason.message
  | malformed path => "Failed to parse type model " ++ path
  | unsupported path => "Unsupported type model format: " ++ path

/-- What people are told about the reason and about what caused it. -/
def ModelError.causes (e : ModelError) : List String :=
  match e with
  | unreadable _ reason => [e.message, reason.message]
  | _ => [e.message]

section Reading

variable {α : Type} [Datum α]

/-- An annotation in data. -/
def AnnotationDecl.read? (data : α) : Option AnnotationDecl := do
  let r ← Record.read? ["name", "value"] data
  let name ← r.required? "name" Datum.text?
  let value ← r.field? "value" none (Datum.optional? Datum.text?)
  some ⟨name, value⟩

/-- A parameter in data. -/
def ParameterDecl.read? (data : α) : Option ParameterDecl := do
  let r ← Record.read? ["name", "type", "annotations"] data
  let name ← r.required? "name" Datum.text?
  let typeName ← r.required? "type" Datum.text?
  let annotations ← r.field? "annotations" [] (Datum.list? AnnotationDecl.read?)
  some ⟨name, typeName, annotations⟩

/-- A method in data. -/
def MethodDecl.read? (data : α) : Option MethodDecl := do
  let r ← Record.read? ["name", "returnType", "parameters"] data
  let name ← r.required? "name" Datum.text?
  let returnType ← r.field? "returnType" none (Datum.optional? Datum.text?)
  let parameters ← r.field? "parameters" [] (Datum.list? ParameterDecl.read?)
  some ⟨name, returnType, parameters⟩

/-- A field in data. -/
def FieldDecl.read? (data : α) : Option FieldDecl := do
  let r ← Record.read? ["name", "type"] data
  let name ← r.required? "name" Datum.text?
  let typeName ← r.required? "type" Datum.text?
  some ⟨name, typeName⟩

/-- A class in data. -/
def ClassDecl.read? (data : α) : Option ClassDecl := do
  let r ← Record.read? ["name", "superclass", "interfaces", "fields", "methods"] data
  let name ← r.required? "name" Datum.text?
  let superclass ← r.field? "superclass" none (Datum.optional? Datum.text?)
  let interfaces ← r.field? "interfaces" [] (Datum.list? Datum.text?)
  let fields ← r.field? "fields" [] (Datum.list? FieldDecl.read?)
  let methods ← r.field? "methods" [] (Datum.list? MethodDecl.read?)
  some ⟨name, superclass, interfaces, fields, methods⟩

/-- The classes of a type model in data. -/
def ClassDecl.readAll? (data : α) : Option (List ClassDecl) := do
  let r ← Record.read? ["types"] data
  r.field? "types" [] (Datum.list? ClassDecl.read?)

end Reading

namespace TypeModel

/-- The classes in a JSON text. -/
def classesOfJson? (text : String) : Option (List ClassDecl) :=
  (Json.parse? text).bind ClassDecl.readAll?

/-- The classes in a YAML text. -/
def classesOfYaml? (text : String) : Option (List ClassDecl) :=
  (Yaml.parse? text).bind fun node => ClassDecl.readAll? (node.getD Yaml.Node.empty)

/-- The model of the classes read from a file, if there are any to be had. -/
def ofReading (path : String) : Option (List ClassDecl) → Except ModelError TypeModel
  | some classes => .ok (ofClasses classes)
  | none => .error (.malformed path)

/-- The model in the JSON text of a file. -/
def ofJson (path text : String) : Except ModelError TypeModel :=
  ofReading path (classesOfJson? text)

/-- The model in the YAML text of a file. -/
def ofYaml (path text : String) : Except ModelError TypeModel :=
  ofReading path (classesOfYaml? text)

/-- The model in the text of a file, in the format that the name of the file stands for. -/
def ofText (path text : String) : Except ModelError TypeModel :=
  match Path.extension? path with
  | some "json" => ofJson path text
  | some "yml" | some "yaml" => ofYaml path text
  | _ => .error (.unsupported path)

/-- The model in a file. -/
def loadFile {m : Type → Type} [Monad m] (access : FileAccess m) (path : String) :
    m (Except ModelError TypeModel) := do
  match ← access.read path with
  | .ok text => pure (ofText path text)
  | .error reason => pure (.error (.unreadable path reason))

/-- A model with those of some files merged into it, up to the first file that has none. -/
def mergeFiles {m : Type → Type} [Monad m] (access : FileAccess m) :
    TypeModel → List String → m (Except ModelError TypeModel)
  | model, [] => pure (.ok model)
  | model, path :: paths => do
    match ← loadFile access path with
    | .ok loaded => mergeFiles access (model.extend loaded.classes) paths
    | .error e => pure (.error e)

/-- The models in some files, merged in order. -/
def load {m : Type → Type} [Monad m] (access : FileAccess m) (paths : List String) :
    m (Except ModelError TypeModel) :=
  mergeFiles access empty paths

end TypeModel

end SqlMapper

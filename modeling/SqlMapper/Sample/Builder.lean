import SqlMapper.Model.Basic

/-!
# Building type models

Classes are built up step by step: a step starts a class or adds to the class started last.

## Main definitions

* `Sample.Step`: a step.
* `Sample.build`: the model of some steps.
-/

namespace SqlMapper.Sample

/-- A step in building a type model. -/
inductive Step where
  | startClass (name : String)
  | superclass (name : String)
  | field (name typeName : String)
  /-- A method without parameters. -/
  | getter (name returnType : String)
  /-- A method that returns nothing. -/
  | method (name : String) (parameters : List ParameterDecl)
  deriving Repr, DecidableEq

/-- A step that adds to a class although none has been started. -/
structure NoClass where
  deriving Repr, DecidableEq

/-- What people are told about such a step. -/
def NoClass.message (_ : NoClass) : String :=
  "TypeModelBuilder: call class() before adding members"

/-- The classes with the last one changed. -/
def changeLast (f : ClassDecl → ClassDecl) : List ClassDecl → Except NoClass (List ClassDecl)
  | [] => .error ⟨⟩
  | [c] => .ok [f c]
  | c :: cs => (changeLast f cs).map (c :: ·)

/-- The classes after one more step. -/
def Step.apply (step : Step) (classes : List ClassDecl) : Except NoClass (List ClassDecl) :=
  match step with
  | startClass name => .ok (classes ++ [{ name }])
  | superclass name => changeLast (fun c => { c with superclass := some name }) classes
  | field name typeName =>
    changeLast (fun c => { c with fields := c.fields ++ [⟨name, typeName⟩] }) classes
  | getter name returnType =>
    changeLast (fun c => { c with methods := c.methods ++ [⟨name, some returnType, []⟩] }) classes
  | method name parameters =>
    changeLast (fun c => { c with methods := c.methods ++ [⟨name, none, parameters⟩] }) classes

/-- The classes that steps build. -/
def buildClasses (steps : List Step) : Except NoClass (List ClassDecl) :=
  steps.foldlM (fun classes step => step.apply classes) []

/-- The model that steps build. -/
def build (steps : List Step) : Except NoClass TypeModel :=
  (buildClasses steps).map TypeModel.ofClasses

end SqlMapper.Sample

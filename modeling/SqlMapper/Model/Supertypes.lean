import SqlMapper.Model.Basic

/-!
# Supertypes

The order in which the classes above a class are searched: first the chain of superclasses, then
the interfaces of the class and of that chain, breadth first. References that name no class end a
chain, and no class is met twice, so cycles are harmless.

## Main definitions

* `TypeModel.superclasses`: the chain of superclasses.
* `TypeModel.interfacesAbove`: the interfaces above some classes.
* `TypeModel.supertypes`: both, in the order of search.
* `TypeModel.lineage`: a class and its supertypes.
-/

namespace SqlMapper.TypeModel

/-- The superclass of a class, if it is in the model. -/
def superclass? (m : TypeModel) (c : ClassDecl) : Option ClassDecl :=
  c.superclass.bind m.resolve?

/-- The chain of at most `fuel` superclasses of a class, up to the first that has been seen. -/
def superclassesUpTo (m : TypeModel) : Nat → List String → ClassDecl → List ClassDecl
  | 0, _, _ => []
  | fuel + 1, seen, c =>
    match m.superclass? c with
    | none => []
    | some parent =>
      if parent.name ∈ seen then []
      else parent :: superclassesUpTo m fuel (parent.name :: seen) parent

/-- The chain of superclasses of a class, up to the first that is not in the model or has been met
before. No chain is longer than the model. -/
def superclasses (m : TypeModel) (c : ClassDecl) : List ClassDecl :=
  m.superclassesUpTo m.classes.length [c.name] c

/-- The classes that references name, without those seen and each once. -/
def unseen (m : TypeModel) : List String → List String → List ClassDecl
  | _, [] => []
  | seen, reference :: references =>
    match m.resolve? reference with
    | none => unseen m seen references
    | some c =>
      if c.name ∈ seen then unseen m seen references
      else c :: unseen m (c.name :: seen) references

/-- The interfaces above the classes of a queue, of which at most `fuel` are taken. -/
def interfacesUpTo (m : TypeModel) : Nat → List String → List ClassDecl → List ClassDecl
  | 0, _, _ => []
  | _, _, [] => []
  | fuel + 1, seen, c :: queue =>
    let found := m.unseen seen c.interfaces
    found ++ interfacesUpTo m fuel (found.map (·.name) ++ seen) (queue ++ found)

/-- The interfaces above the classes of a queue, breadth first and without those seen. The queue
grows by each class of the model at most once. -/
def interfacesAbove (m : TypeModel) (seen : List String) (queue : List ClassDecl) :
    List ClassDecl :=
  m.interfacesUpTo (queue.length + m.classes.length) seen queue

/-- The supertypes of a class, in the order of search. -/
def supertypes (m : TypeModel) (c : ClassDecl) : List ClassDecl :=
  let chain := m.superclasses c
  chain ++ m.interfacesAbove (c.name :: chain.map (·.name)) (c :: chain)

/-- A class and its supertypes, in the order of search. -/
def lineage (m : TypeModel) (c : ClassDecl) : List ClassDecl :=
  c :: m.supertypes c

end SqlMapper.TypeModel

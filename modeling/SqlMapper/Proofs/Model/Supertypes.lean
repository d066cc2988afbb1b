import Mathlib.Data.List.Perm.Subperm
import Mathlib.Logic.Relation
import SqlMapper.Proofs.Model.FirstOfEach
import SqlMapper.Proofs.Model.Index

/-!
# The order of supertypes

Two loops search for the supertypes of a class: one climbs from superclass to superclass, the other
takes classes from a queue and puts their new interfaces behind it. `Ascends` and `Explores` say how
such a loop runs until it stops by itself. Each step meets a class that has not been met, so a run
is never longer than the model has classes, whatever cycles there are.

## Main definitions

* `TypeModel.Ascends`, `TypeModel.Explores`: complete runs of the two loops.
* `TypeModel.IsSuperclassChain`: the superclasses of a class up to the first that is not new.
* `TypeModel.Linearizes`: supertypes in the order of search.

## Main statements

* `TypeModel.ascends_superclassesUpTo`, `TypeModel.explores_interfacesUpTo`: enough steps complete
  a run.
* `TypeModel.Explores.eq_firstOfEach`: the queue determines the order of what is found.
* `TypeModel.supertypes_linearizes`: the supertypes of a class.
-/

namespace SqlMapper.TypeModel

variable {m : TypeModel} {seen : List String} {c d : ClassDecl} {chain queue found : List ClassDecl}

/-- The classes that a class names as its interfaces. -/
def interfacesOf (m : TypeModel) (c : ClassDecl) : List ClassDecl :=
  c.interfaces.filterMap m.resolve?

/-- The number of classes that have not been seen. -/
def unmet (m : TypeModel) (seen : List String) : Nat :=
  m.names.countP fun name => name ∉ seen

/-- The superclasses that climbing from a class leads through. It stops where there is no superclass
or where it has been seen. -/
inductive Ascends (m : TypeModel) : List String → ClassDecl → List ClassDecl → Prop
  | stop {seen : List String} {c : ClassDecl}
      (h : ∀ d, m.superclass? c = some d → d.name ∈ seen) : Ascends m seen c []
  | step {seen : List String} {c d : ClassDecl} {chain : List ClassDecl}
      (hd : m.superclass? c = some d) (hnew : d.name ∉ seen)
      (h : Ascends m (d.name :: seen) d chain) : Ascends m seen c (d :: chain)

/-- The interfaces that are found by working off a queue, each put behind it when it is found. -/
inductive Explores (m : TypeModel) : List String → List ClassDecl → List ClassDecl → Prop
  | done {seen : List String} : Explores m seen [] []
  | step {seen : List String} {c : ClassDecl} {queue found : List ClassDecl}
      (h : Explores m ((m.unseen seen c.interfaces).map (·.name) ++ seen)
        (queue ++ m.unseen seen c.interfaces) found) :
      Explores m seen (c :: queue) (m.unseen seen c.interfaces ++ found)

/-- The superclasses of a class in order, up to the first that is unknown or has been met. -/
structure IsSuperclassChain (m : TypeModel) (c : ClassDecl) (chain : List ClassDecl) : Prop where
  linked : (c :: chain).IsChain fun a b => m.superclass? a = some b
  nodup : (c :: chain).Nodup
  ended : ∀ d, m.superclass? ((c :: chain).getLast (List.cons_ne_nil c chain)) = some d →
    d ∈ c :: chain

/-- A chain of superclasses and behind it the interfaces that can be reached from the class or the
chain. These come in the order in which the class, the chain and they themselves name them. -/
structure Linearizes (m : TypeModel) (c : ClassDecl) (chain interfaces : List ClassDecl) : Prop where
  isSuperclassChain : m.IsSuperclassChain c chain
  nodup : (c :: (chain ++ interfaces)).Nodup
  mem_iff : ∀ d, d ∈ chain ++ interfaces ↔ d ∈ chain ∨ d ≠ c ∧
    ∃ e ∈ c :: chain, Relation.TransGen (fun a b => b ∈ m.interfacesOf a) e d
  breadthFirst : interfaces =
    (((c :: (chain ++ interfaces)).flatMap m.interfacesOf).filter (· ∉ c :: chain)).eraseDups

/-! ### Classes of an indexed model -/

theorem Indexed.mem_of_resolve? (h : m.Indexed) {reference : String}
    (hc : m.resolve? reference = some c) : c ∈ m.classes :=
  ((h.resolve?_eq_some_iff reference c).1 hc).2.1

theorem Indexed.mem_of_superclass? (h : m.Indexed) (hd : m.superclass? c = some d) :
    d ∈ m.classes := by
  obtain ⟨reference, -, hreference⟩ := Option.bind_eq_some_iff.1 hd
  exact h.mem_of_resolve? hreference

theorem Indexed.mem_of_mem_interfacesOf (h : m.Indexed) (hd : d ∈ m.interfacesOf c) :
    d ∈ m.classes := by
  obtain ⟨reference, -, hreference⟩ := List.mem_filterMap.1 hd
  exact h.mem_of_resolve? hreference

theorem Indexed.eq_of_name_eq (h : m.Indexed) (hc : c ∈ m.classes) (hd : d ∈ m.classes)
    (hname : c.name = d.name) : c = d :=
  List.inj_on_of_nodup_map h.names_nodup hc hd hname

theorem Indexed.name_mem_iff (h : m.Indexed) {classes : List ClassDecl}
    (hclasses : ∀ e ∈ classes, e ∈ m.classes) (hd : d ∈ m.classes) :
    d.name ∈ classes.map (·.name) ↔ d ∈ classes := by
  constructor
  · intro hname
    obtain ⟨e, he, hsame⟩ := List.mem_map.1 hname
    exact h.eq_of_name_eq (hclasses e he) hd hsame ▸ he
  · exact List.mem_map_of_mem

theorem unmet_le (m : TypeModel) (seen : List String) : m.unmet seen ≤ m.classes.length := by
  have hle := List.countP_le_length (l := m.names) (p := fun name => decide (name ∉ seen))
  rwa [names, List.length_map] at hle

/-- Classes that are met for the first time are no longer unmet. -/
theorem unmet_append {new : List String} (hnodup : new.Nodup)
    (hnew : ∀ name ∈ new, name ∈ m.names ∧ name ∉ seen) :
    m.unmet (new ++ seen) + new.length ≤ m.unmet seen := by
  have hsplit := List.countP_eq_countP_filter_add m.names (fun name => decide (name ∉ seen))
    fun name => decide (name ∈ new)
  have hmet : new.length ≤ (m.names.filter (· ∈ new)).countP (· ∉ seen) := by
    have hsub : new ⊆ (m.names.filter (· ∈ new)).filter (· ∉ seen) := by
      intro name hname
      simp only [List.mem_filter, decide_eq_true_eq]
      exact ⟨⟨(hnew name hname).1, hname⟩, (hnew name hname).2⟩
    rw [List.countP_eq_length_filter]
    exact (List.subperm_of_subset hnodup hsub).length_le
  have hleft : m.unmet (new ++ seen) =
      (m.names.filter fun name => !decide (name ∈ new)).countP (· ∉ seen) := by
    rw [unmet, List.countP_filter]
    congr 1
    funext name
    by_cases hname : name ∈ new <;> simp [hname]
  rw [← unmet] at hsplit
  omega

theorem unmet_cons (hd : d ∈ m.classes) (hnew : d.name ∉ seen) :
    m.unmet (d.name :: seen) < m.unmet seen := by
  have hle : m.unmet ([d.name] ++ seen) + [d.name].length ≤ m.unmet seen :=
    unmet_append (List.nodup_singleton _) (by simpa using ⟨List.mem_map_of_mem hd, hnew⟩)
  exact hle

theorem unseen_eq_firstOfEach (m : TypeModel) (seen references : List String) :
    m.unseen seen references = firstOfEach (·.name) seen (references.filterMap m.resolve?) := by
  induction references generalizing seen with
  | nil => rfl
  | cons reference references ih =>
    rw [unseen]
    split
    · next hnone => rw [List.filterMap_cons_none hnone, ih]
    · next c hc =>
      rw [List.filterMap_cons_some hc]
      split
      · next hseen => rw [firstOfEach_cons_of_mem hseen, ih]
      · next hnew => rw [firstOfEach_cons_of_not_mem hnew, ih]

theorem Indexed.mem_unseen (h : m.Indexed) (hd : d ∈ m.unseen seen c.interfaces) :
    d ∈ m.classes ∧ d.name ∉ seen := by
  rw [unseen_eq_firstOfEach] at hd
  obtain ⟨hmem, hnew⟩ := mem_of_mem_firstOfEach hd
  exact ⟨h.mem_of_mem_interfacesOf hmem, hnew⟩

/-! ### Climbing -/

/-- As many steps as there are classes that have not been seen are enough to climb to the end. -/
theorem ascends_superclassesUpTo (h : m.Indexed) {steps : Nat} (hsteps : m.unmet seen ≤ steps) :
    m.Ascends seen c (m.superclassesUpTo steps seen c) := by
  induction steps generalizing seen c with
  | zero =>
    refine .stop fun d hd => ?_
    by_contra hnew
    have hless := unmet_cons (h.mem_of_superclass? hd) hnew
    omega
  | succ steps ih =>
    rw [superclassesUpTo]
    split
    · next hnone => exact .stop (by simp [hnone])
    · next d hd =>
      split
      · next hseen =>
        refine .stop fun e he => ?_
        obtain rfl : d = e := Option.some.inj (hd.symm.trans he)
        exact hseen
      · next hnew =>
        have hless := unmet_cons (h.mem_of_superclass? hd) hnew
        exact .step hd hnew (ih (by omega))

namespace Ascends

theorem eq_of_ascends (h : m.Ascends seen c chain) {other : List ClassDecl}
    (hother : m.Ascends seen c other) : chain = other := by
  induction h generalizing other with
  | stop hstop =>
    cases hother with
    | stop => rfl
    | step hd hnew => exact absurd (hstop _ hd) hnew
  | step hd hnew _ ih =>
    cases hother with
    | stop hstop => exact absurd (hstop _ hd) hnew
    | step he _ hrest =>
      obtain rfl := Option.some.inj (hd.symm.trans he)
      rw [ih hrest]

theorem linked (h : m.Ascends seen c chain) :
    (c :: chain).IsChain fun a b => m.superclass? a = some b := by
  induction h with
  | stop => exact List.IsChain.singleton _
  | step hd _ _ ih => exact List.isChain_cons_cons.2 ⟨hd, ih⟩

theorem fresh (h : m.Ascends seen c chain) (hm : m.Indexed) :
    ∀ d ∈ chain, d ∈ m.classes ∧ d.name ∉ seen := by
  induction h with
  | stop => simp
  | step hd hnew _ ih =>
    intro e he
    rcases List.mem_cons.1 he with rfl | he
    · exact ⟨hm.mem_of_superclass? hd, hnew⟩
    · exact ⟨(ih e he).1, fun hseen => (ih e he).2 (List.mem_cons_of_mem _ hseen)⟩

theorem nodup (h : m.Ascends seen c chain) (hm : m.Indexed) : chain.Nodup := by
  induction h with
  | stop => exact List.nodup_nil
  | step _ _ hrest ih =>
    refine List.nodup_cons.2 ⟨fun hmem => ?_, ih⟩
    exact (hrest.fresh hm _ hmem).2 List.mem_cons_self

theorem ended (h : m.Ascends seen c chain) :
    ∀ d, m.superclass? ((c :: chain).getLast (List.cons_ne_nil c chain)) = some d →
      d.name ∈ chain.map (·.name) ++ seen := by
  induction h with
  | stop hstop => exact hstop
  | step _ _ _ ih =>
    intro e he
    have hmet := ih e (by rwa [List.getLast_cons (List.cons_ne_nil _ _)] at he)
    simp only [List.mem_append, List.map_cons, List.mem_cons] at hmet ⊢
    tauto

theorem isSuperclassChain (h : m.Ascends [c.name] c chain) (hm : m.Indexed) (hc : c ∈ m.classes) :
    m.IsSuperclassChain c chain where
  linked := h.linked
  nodup := List.nodup_cons.2 ⟨fun hmem => (h.fresh hm c hmem).2 List.mem_cons_self, h.nodup hm⟩
  ended := by
    intro d hd
    have hclasses : ∀ e ∈ c :: chain, e ∈ m.classes :=
      List.forall_mem_cons.2 ⟨hc, fun e he => (h.fresh hm e he).1⟩
    have hname := h.ended d hd
    rw [← hm.name_mem_iff hclasses (hm.mem_of_superclass? hd), List.map_cons, List.mem_cons]
    exact (List.mem_append.1 hname).symm.imp_left List.mem_singleton.1

end Ascends

/-! ### Working off a queue -/

/-- A queue and the classes that can still come behind it bound the number of steps. -/
theorem explores_interfacesUpTo (h : m.Indexed) {steps : Nat}
    (hsteps : queue.length + m.unmet seen ≤ steps) :
    m.Explores seen queue (m.interfacesUpTo steps seen queue) := by
  induction steps generalizing seen queue with
  | zero =>
    obtain rfl : queue = [] := List.length_eq_zero_iff.1 (by omega)
    exact .done
  | succ steps ih =>
    cases queue with
    | nil => exact .done
    | cons c queue =>
      have hnodup : ((m.unseen seen c.interfaces).map (·.name)).Nodup := by
        rw [unseen_eq_firstOfEach]
        exact nodup_keys_firstOfEach _ _
      have hless := unmet_append hnodup fun name hname => by
        obtain ⟨d, hd, rfl⟩ := List.mem_map.1 hname
        exact (h.mem_unseen hd).imp_left List.mem_map_of_mem
      rw [List.length_map] at hless
      rw [List.length_cons] at hsteps
      exact .step (ih (by rw [List.length_append]; omega))

namespace Explores

theorem eq_of_explores (h : m.Explores seen queue found) {other : List ClassDecl}
    (hother : m.Explores seen queue other) : found = other := by
  induction h generalizing other with
  | done =>
    cases hother
    rfl
  | step _ ih =>
    cases hother with
    | step hrest => rw [ih hrest]

/-- What is found are the interfaces of the queue and of what is found, those seen left out. -/
theorem eq_firstOfEach (h : m.Explores seen queue found) :
    found = firstOfEach (·.name) seen ((queue ++ found).flatMap m.interfacesOf) := by
  induction h with
  | done => rfl
  | @step seen c queue found _ ih =>
    rw [List.cons_append, List.flatMap_cons, firstOfEach_append, interfacesOf,
      ← unseen_eq_firstOfEach, ← List.append_assoc, ← ih]

theorem reachable (h : m.Explores seen queue found) :
    ∀ d ∈ found, ∃ e ∈ queue, Relation.TransGen (fun a b => b ∈ m.interfacesOf a) e d := by
  induction h with
  | done => simp
  | @step seen c queue found _ ih =>
    have hedge : ∀ d ∈ m.unseen seen c.interfaces, d ∈ m.interfacesOf c := by
      intro d hd
      rw [unseen_eq_firstOfEach] at hd
      exact (mem_of_mem_firstOfEach hd).1
    intro d hd
    rcases List.mem_append.1 hd with hd | hd
    · exact ⟨c, List.mem_cons_self, .single (hedge d hd)⟩
    · obtain ⟨e, he, hpath⟩ := ih d hd
      rcases List.mem_append.1 he with he | he
      · exact ⟨e, List.mem_cons_of_mem c he, hpath⟩
      · exact ⟨c, List.mem_cons_self, .head (hedge e he) hpath⟩

theorem breadthFirst (h : m.Explores (queue.map (·.name)) queue found) (hm : m.Indexed)
    (hqueue : ∀ e ∈ queue, e ∈ m.classes) :
    found = (((queue ++ found).flatMap m.interfacesOf).filter (· ∉ queue)).eraseDups := by
  have hclasses : ∀ d ∈ (queue ++ found).flatMap m.interfacesOf, d ∈ m.classes := by
    intro d hd
    obtain ⟨e, -, hedge⟩ := List.mem_flatMap.1 hd
    exact hm.mem_of_mem_interfacesOf hedge
  have hfilter : ((queue ++ found).flatMap m.interfacesOf).filter (· ∉ queue) =
      ((queue ++ found).flatMap m.interfacesOf).filter (·.name ∉ queue.map (·.name)) := by
    refine List.filter_congr fun d hd => ?_
    rw [decide_eq_decide, hm.name_mem_iff hqueue (hclasses d hd)]
  rw [hfilter, ← firstOfEach_eq_eraseDups _ fun d hd e he =>
    hm.eq_of_name_eq (hclasses d hd) (hclasses e he)]
  exact h.eq_firstOfEach

theorem mem_iff (h : m.Explores (queue.map (·.name)) queue found) (hm : m.Indexed)
    (hqueue : ∀ e ∈ queue, e ∈ m.classes) :
    d ∈ found ↔
      d ∉ queue ∧ ∃ e ∈ queue, Relation.TransGen (fun a b => b ∈ m.interfacesOf a) e d := by
  have hfound : ∀ d, d ∈ found ↔ (∃ e ∈ queue ++ found, d ∈ m.interfacesOf e) ∧ d ∉ queue := by
    intro d
    conv_lhs => rw [h.breadthFirst hm hqueue]
    rw [List.mem_eraseDups, List.mem_filter, List.mem_flatMap, decide_eq_true_eq]
  constructor
  · intro hd
    exact ⟨((hfound d).1 hd).2, h.reachable d hd⟩
  · rintro ⟨hnew, e, he, hpath⟩
    -- Queue and findings together are closed under interfaces.
    have hclosed : ∀ a b, a ∈ queue ++ found → b ∈ m.interfacesOf a → b ∈ queue ++ found := by
      intro a b ha hedge
      by_cases hb : b ∈ queue
      · exact List.mem_append_left found hb
      · exact List.mem_append_right queue ((hfound b).2 ⟨⟨a, ha, hedge⟩, hb⟩)
    have hd : d ∈ queue ++ found := by
      clear hnew
      induction hpath with
      | single hedge => exact hclosed _ _ (List.mem_append_left found he) hedge
      | tail _ hedge ih => exact hclosed _ _ ih hedge
    exact (List.mem_append.1 hd).resolve_left hnew

end Explores

/-! ### Supertypes -/

theorem linearizes (hm : m.Indexed) (hc : c ∈ m.classes) {interfaces : List ClassDecl}
    (hchain : m.Ascends [c.name] c chain)
    (hfound : m.Explores ((c :: chain).map (·.name)) (c :: chain) interfaces) :
    m.Linearizes c chain interfaces := by
  have hqueue : ∀ e ∈ c :: chain, e ∈ m.classes :=
    List.forall_mem_cons.2 ⟨hc, fun e he => (hchain.fresh hm e he).1⟩
  have hmem : ∀ d, d ∈ interfaces ↔ d ∉ c :: chain ∧
      ∃ e ∈ c :: chain, Relation.TransGen (fun a b => b ∈ m.interfacesOf a) e d :=
    fun d => hfound.mem_iff hm hqueue
  have hstart := hchain.isSuperclassChain hm hc
  constructor
  · exact hstart
  · have hnodup : interfaces.Nodup := by
      rw [hfound.eq_firstOfEach]
      exact List.Nodup.of_map _ (nodup_keys_firstOfEach _ _)
    rw [← List.cons_append]
    exact hstart.nodup.append hnodup fun d hd hd' => ((hmem d).1 hd').1 hd
  · intro d
    rw [List.mem_append, hmem, List.mem_cons, not_or]
    constructor
    · rintro (hd | ⟨⟨hne, -⟩, hpath⟩)
      · exact .inl hd
      · exact .inr ⟨hne, hpath⟩
    · rintro (hd | ⟨hne, hpath⟩)
      · exact .inl hd
      · by_cases hd : d ∈ chain
        · exact .inl hd
        · exact .inr ⟨⟨hne, hd⟩, hpath⟩
  · exact hfound.breadthFirst hm hqueue

/-- In every model, whatever its references lead to, the supertypes of a class are the chain of its
superclasses and then, breadth first, the interfaces above it and the chain. Neither search depends
on how many steps it is allowed beyond those that it needs. -/
theorem supertypes_linearizes (parts : List (List ClassDecl)) {c : ClassDecl}
    (hc : c ∈ (ofParts parts).classes) :
    ∃ chain interfaces, (ofParts parts).supertypes c = chain ++ interfaces ∧
      (ofParts parts).Linearizes c chain interfaces ∧
      (∀ steps, (ofParts parts).classes.length ≤ steps →
        (ofParts parts).superclassesUpTo steps [c.name] c = chain) ∧
      ∀ steps, (c :: chain).length + (ofParts parts).classes.length ≤ steps →
        (ofParts parts).interfacesUpTo steps ((c :: chain).map (·.name)) (c :: chain) =
          interfaces := by
  have hm := indexed_ofParts parts
  generalize ofParts parts = m at hm hc
  have hclimb : ∀ steps, m.classes.length ≤ steps →
      m.Ascends [c.name] c (m.superclassesUpTo steps [c.name] c) := fun steps hsteps =>
    ascends_superclassesUpTo hm (Nat.le_trans (m.unmet_le _) hsteps)
  have hwork : ∀ queue : List ClassDecl, ∀ steps, queue.length + m.classes.length ≤ steps →
      m.Explores (queue.map (·.name)) queue (m.interfacesUpTo steps (queue.map (·.name)) queue) :=
    fun queue steps hsteps => explores_interfacesUpTo hm <| by
      have hle := m.unmet_le (queue.map (·.name))
      omega
  have hchain := hclimb _ (Nat.le_refl _)
  have hfound := hwork (c :: m.superclasses c) _ (Nat.le_refl _)
  refine ⟨_, _, rfl, linearizes hm hc hchain hfound, fun steps hsteps => ?_, fun steps hsteps => ?_⟩
  · exact (hclimb steps hsteps).eq_of_ascends hchain
  · exact (hwork _ steps hsteps).eq_of_explores hfound

/-- A class whose superclass has it for its superclass, by its unqualified name. -/
def lowClass : ClassDecl where
  name := "a.Low"
  superclass := some "a.High"
  interfaces := ["Near", "b.Missing"]

/-- Classes above each other, with interfaces that lead back to them. -/
def knot : List ClassDecl :=
  [{ name := "a.High", superclass := some "Low", interfaces := ["Far", "a.Near"] }, lowClass,
    { name := "a.Deep", interfaces := ["Far"] }, { name := "a.Far", interfaces := ["a.Near"] },
    { name := "a.Near", interfaces := ["a.Deep", "a.Low"] }]

/-- Cycles of both kinds end the search: the interfaces of the class come before those of its
superclass, and what these lead to comes last. -/
theorem supertypes_linearizes_knot : lowClass ∈ (ofParts [knot]).classes ∧
    ∃ chain interfaces, (chain ++ interfaces).map (·.name) = ["a.High", "a.Near", "a.Far", "a.Deep"] ∧
      (ofParts [knot]).Linearizes lowClass chain interfaces := by
  have hlow : lowClass ∈ (ofParts [knot]).classes := by decide +kernel
  obtain ⟨chain, interfaces, hsupertypes, hlinear, -⟩ := supertypes_linearizes [knot] hlow
  refine ⟨hlow, chain, interfaces, ?_, hlinear⟩
  rw [← hsupertypes]
  decide +kernel

end SqlMapper.TypeModel

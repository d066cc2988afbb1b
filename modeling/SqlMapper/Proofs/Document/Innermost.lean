import Mathlib.Data.List.Nodup
import SqlMapper.Document.Caret
import SqlMapper.Proofs.Document.Statements
import SqlMapper.Proofs.Span

/-!
# The innermost statement

Which statement stands around an offset. The elements with an id and the statements are kept in two
lists, and a statement is found again by the place of its element. The two lists are filled in
step, so that where the places of the elements differ, this leads to the statement of the very
element that was found.

## Main definitions

* `Document.ProperlyNested`: elements whose places differ and lie in each other or share nothing.
* `Document.IsDeepest`: the element around an offset that lies in all others around it.

## Main statements

* `Document.innermost?_eq_some_iff`: the shortest element around an offset is the deepest one.
* `Document.sublist_spans_statements`: statements stand where elements with an id do.
* `Document.enclosingStatement?_deepest`: the statement around an offset.
-/

namespace SqlMapper

open Markup

namespace Document

/-! ### The deepest element -/

/-- The elements with an id have different places, and of two of them one lies in the other or they
share nothing. -/
structure ProperlyNested (d : Document) : Prop where
  distinct : (d.idElements.map (·.span)).Nodup
  nested : ∀ e ∈ d.idElements, ∀ f ∈ d.idElements, e.span.NestedOrDisjoint f.span

/-- The element has an id, stands around the offset, and lies in every other such element. -/
structure IsDeepest (d : Document) (offset : Nat) (e : IdElement) : Prop where
  mem : e ∈ d.idElements
  contains : e.span.contains offset = true
  inside : ∀ f ∈ d.idElements, f.span.contains offset = true → e.span.Inside f.span

theorem shortest?_eq_none_iff {es : List IdElement} : shortest? es = none ↔ es = [] := by
  cases es with
  | nil => simp [shortest?]
  | cons e es =>
    rw [shortest?]
    split
    · split <;> simp
    · simp

theorem shortest?_eq_some {es : List IdElement} {e : IdElement} (h : shortest? es = some e) :
    e ∈ es ∧ ∀ f ∈ es, e.span.length ≤ f.span.length := by
  induction es generalizing e with
  | nil => simp [shortest?] at h
  | cons e' es ih =>
    rw [shortest?] at h
    split at h
    · next f hf =>
      obtain ⟨hmem, hle⟩ := ih hf
      split at h
      · obtain rfl := Option.some.inj h
        exact ⟨List.mem_cons_of_mem _ hmem, List.forall_mem_cons.2 ⟨by omega, hle⟩⟩
      · obtain rfl := Option.some.inj h
        refine ⟨List.mem_cons_self, List.forall_mem_cons.2 ⟨by omega, ?_⟩⟩
        intro g hg
        have hfg := hle g hg
        omega
    · next hnone =>
      obtain rfl := Option.some.inj h
      rw [shortest?_eq_none_iff.1 hnone]
      simp

variable {d : Document} {offset : Nat} {e : IdElement}

theorem isDeepest_of_innermost? (hnested : d.ProperlyNested) (h : d.innermost? offset = some e) :
    d.IsDeepest offset e := by
  obtain ⟨hmem, hshortest⟩ := shortest?_eq_some h
  obtain ⟨he, hcontains⟩ := List.mem_filter.1 hmem
  refine ⟨he, hcontains, ?_⟩
  intro f hf hfcontains
  exact (hnested.nested e he f hf).inside_of_length_le hcontains hfcontains
    (hshortest f (List.mem_filter.2 ⟨hf, hfcontains⟩))

theorem innermost?_eq_none_iff :
    d.innermost? offset = none ↔ ∀ e ∈ d.idElements, ¬ e.span.contains offset = true := by
  rw [innermost?, shortest?_eq_none_iff, List.filter_eq_nil_iff]

/-- The shortest element around an offset is the deepest one. -/
theorem innermost?_eq_some_iff (hnested : d.ProperlyNested) :
    d.innermost? offset = some e ↔ d.IsDeepest offset e := by
  refine ⟨isDeepest_of_innermost? hnested, ?_⟩
  intro hdeepest
  cases hfound : d.innermost? offset with
  | none => exact absurd hdeepest.contains (innermost?_eq_none_iff.1 hfound e hdeepest.mem)
  | some f =>
    -- The two lie in each other, and elements are known by their places.
    have hf := isDeepest_of_innermost? hnested hfound
    have hspan : f.span = e.span :=
      (hf.inside e hdeepest.mem hdeepest.contains).antisymm (hdeepest.inside f hf.mem hf.contains)
    rw [List.inj_on_of_nodup_map hnested.distinct hf.mem hdeepest.mem hspan]

/-! ### The statement of an element -/

theorem idElement?_of_statement? {x : Element} {s : Statement} (h : x.statement? = some s) :
    x.idElement? = some ⟨x.tag, s.id, s.span⟩ := by
  simp only [Element.statement?, Option.bind_eq_bind, Option.bind_eq_some_iff,
    Option.some.injEq] at h
  obtain ⟨id, hid, kind, -, rfl⟩ := h
  simp [Element.idElement?, hid]

theorem exists_statement?_of_idElement? {x : Element} {kind : StatementKind}
    (h : x.idElement? = some e) (hkind : StatementKind.ofTag? e.tag = some kind) :
    ∃ s, x.statement? = some s ∧ s.kind = kind ∧ s.id = e.id ∧ s.span = e.span := by
  obtain ⟨id, hid, rfl⟩ := Option.map_eq_some_iff.1 h
  simp [Element.statement?, hid, hkind]

variable {uri : FileUri} {text : String}

/-- Every element that is of the kind of a statement is recorded as one. -/
theorem exists_statement_of_mem_idElements (hd : parse uri text = .ok d)
    (he : e ∈ d.idElements) {kind : StatementKind}
    (hkind : StatementKind.ofTag? e.tag = some kind) :
    ∃ s ∈ d.statements, s.kind = kind ∧ s.id = e.id ∧ s.span = e.span := by
  obtain ⟨root, -, rfl⟩ := parse_eq_ok_iff.1 hd
  rw [idElements_ofRoot] at he
  obtain ⟨x, hx, hxe⟩ := List.mem_filterMap.1 he
  obtain ⟨s, hs, hagree⟩ := exists_statement?_of_idElement? hxe hkind
  rw [statements_ofRoot]
  exact ⟨s, List.mem_filterMap.2 ⟨x, hx, hs⟩, hagree⟩

/-- The statements stand where elements with an id do, in the same order. -/
theorem sublist_spans_statements (hd : parse uri text = .ok d) :
    (d.statements.map (·.span)).Sublist (d.idElements.map (·.span)) := by
  obtain ⟨root, -, rfl⟩ := parse_eq_ok_iff.1 hd
  rw [statements_ofRoot, idElements_ofRoot]
  induction root.preorder with
  | nil => exact List.Sublist.slnil
  | cons x xs ih =>
    cases hs : x.statement? with
    | some s =>
      rw [List.filterMap_cons_some hs, List.filterMap_cons_some (idElement?_of_statement? hs)]
      exact ih.cons_cons s.span
    | none =>
      rw [List.filterMap_cons_none hs]
      cases he : x.idElement? with
      | none => rwa [List.filterMap_cons_none he]
      | some e =>
        rw [List.filterMap_cons_some he]
        exact ih.cons e.span

/-- A statement is the only one in its place. -/
theorem find?_statement (hd : parse uri text = .ok d) (hnested : d.ProperlyNested) {s : Statement}
    (hs : s ∈ d.statements) (hspan : s.span = e.span) :
    (d.statements.find? fun t => t.span = e.span) = some s := by
  have hdistinct : (d.statements.map (·.span)).Nodup :=
    (sublist_spans_statements hd).nodup hnested.distinct
  apply find?_eq_some_of_unique hs (by simpa using hspan)
  intro t ht htspan
  exact List.inj_on_of_nodup_map hdistinct ht hs ((of_decide_eq_true htspan).trans hspan.symm)

theorem enclosingStatement?_of_isDeepest (hnested : d.ProperlyNested)
    (hdeepest : d.IsDeepest offset e) :
    d.enclosingStatement? offset =
      (StatementKind.ofTag? e.tag).bind fun _ => d.statements.find? fun s => s.span = e.span := by
  rw [enclosingStatement?, (innermost?_eq_some_iff hnested).2 hdeepest]
  rfl

theorem enclosingStatement?_eq_none_iff (hd : parse uri text = .ok d) (hnested : d.ProperlyNested)
    (hdeepest : d.IsDeepest offset e) :
    d.enclosingStatement? offset = none ↔ StatementKind.ofTag? e.tag = none := by
  rw [enclosingStatement?_of_isDeepest hnested hdeepest]
  cases hkind : StatementKind.ofTag? e.tag with
  | none => simp
  | some kind =>
    obtain ⟨s, hs, -, -, hspan⟩ := exists_statement_of_mem_idElements hd hdeepest.mem hkind
    simp [find?_statement hd hnested hs hspan]

/-- The innermost statement. In a parsed document whose elements with an id have different places
that lie in each other or share nothing, and at every offset: the statement around the offset is
the one recorded for the deepest element with an id around it, with the same kind, id and place. If
there is an element with an id around the offset, then there is a deepest one; and if that is not
of the kind of a statement, there is no statement, whatever stands further out. -/
theorem enclosingStatement?_deepest (hd : parse uri text = .ok d) (hnested : d.ProperlyNested)
    (offset : Nat) :
    (∀ s, d.enclosingStatement? offset = some s ↔
      ∃ e, d.IsDeepest offset e ∧ StatementKind.ofTag? e.tag = some s.kind ∧
        s ∈ d.statements ∧ s.id = e.id ∧ s.span = e.span) ∧
    ((∃ e ∈ d.idElements, e.span.contains offset = true) → ∃ e, d.IsDeepest offset e) ∧
    ∀ e, d.IsDeepest offset e →
      (d.enclosingStatement? offset = none ↔ StatementKind.ofTag? e.tag = none) := by
  refine ⟨?_, ?_, fun e hdeepest => enclosingStatement?_eq_none_iff hd hnested hdeepest⟩
  · intro s
    constructor
    · intro hsome
      obtain ⟨e, he, -⟩ := Option.bind_eq_some_iff.1 hsome
      have hdeepest := isDeepest_of_innermost? hnested he
      rw [enclosingStatement?_of_isDeepest hnested hdeepest] at hsome
      obtain ⟨kind, hkind, hfound⟩ := Option.bind_eq_some_iff.1 hsome
      -- What is found in the place of the element is what was recorded for it.
      obtain ⟨t, ht, rfl, hid, hspan⟩ := exists_statement_of_mem_idElements hd hdeepest.mem hkind
      rw [find?_statement hd hnested ht hspan] at hfound
      obtain rfl := Option.some.inj hfound
      exact ⟨e, hdeepest, hkind, ht, hid, hspan⟩
    · rintro ⟨e, hdeepest, hkind, hs, -, hspan⟩
      rw [enclosingStatement?_of_isDeepest hnested hdeepest, hkind, Option.bind_some,
        find?_statement hd hnested hs hspan]
  · rintro ⟨f, hf, hcontains⟩
    cases hfound : d.innermost? offset with
    | none => exact absurd hcontains (innermost?_eq_none_iff.1 hfound f hf)
    | some e => exact ⟨e, isDeepest_of_innermost? hnested hfound⟩

/-- A statement inside an element of another kind, with an element of another kind inside it. -/
def wrappedText : String :=
  "<mapper><sql id='f'>u<insert id='b'>v<key id='k'>w</key>x</insert></sql></mapper>"

/-- In the statement the offset has the statement around it. In the element inside the statement
and in the one around it there is none. -/
theorem enclosingStatement?_deepest_wrapped :
    ∃ d, parse ⟨"M.xml"⟩ wrappedText = .ok d ∧ d.ProperlyNested ∧
      d.enclosingStatement? 36 = some ⟨.insert, "b", ⟨21, 66⟩, none⟩ ∧
      d.enclosingStatement? 49 = none ∧ d.enclosingStatement? 20 = none := by
  have hparsed : (parse ⟨"M.xml"⟩ wrappedText).toOption.map
      (fun d => (d.idElements, d.statements)) =
        some ([⟨"sql", "f", ⟨8, 72⟩⟩, ⟨"insert", "b", ⟨21, 66⟩⟩, ⟨"key", "k", ⟨37, 56⟩⟩],
          [⟨.insert, "b", ⟨21, 66⟩, none⟩]) := by
    decide +kernel
  obtain ⟨d, hd, hrecords⟩ := exists_of_toOption_parse hparsed
  obtain ⟨helements, hstatements⟩ := Prod.mk.inj hrecords
  have hnested : d.ProperlyNested := by
    constructor <;> rw [helements] <;> decide
  have hinsert : d.IsDeepest 36 ⟨"insert", "b", ⟨21, 66⟩⟩ :=
    ⟨by simp [helements], by decide, by rw [helements]; decide⟩
  have hkey : d.IsDeepest 49 ⟨"key", "k", ⟨37, 56⟩⟩ :=
    ⟨by simp [helements], by decide, by rw [helements]; decide⟩
  have hsql : d.IsDeepest 20 ⟨"sql", "f", ⟨8, 72⟩⟩ :=
    ⟨by simp [helements], by decide, by rw [helements]; decide⟩
  have hlaw := enclosingStatement?_deepest hd hnested
  refine ⟨d, hd, hnested, ?_, ?_, ?_⟩
  · exact ((hlaw 36).1 _).2 ⟨_, hinsert, by decide, by simp [hstatements], rfl, rfl⟩
  · exact ((hlaw 49).2.2 _ hkey).2 (by decide)
  · exact ((hlaw 20).2.2 _ hsql).2 (by decide)

end Document

end SqlMapper

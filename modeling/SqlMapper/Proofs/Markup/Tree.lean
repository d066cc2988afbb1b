import SqlMapper.Markup.Tree
import SqlMapper.Proofs.Markup.Reader

/-!
# Places in the tree of a document

The attributes of an element are those of the events of its tag, so their places lie in the text.
No step of building the tree makes up a place of its own for an attribute.

## Main definitions

* `Element.Within`, `Workbench.Within`: attributes whose places lie in a text of a given length.

## Main statements

* `Workbench.ensures_step`, `Workbench.ensures_foldlM`: one event, and any run of events.
* `ensures_parse`: the attribute values of a parsed document lie in its text.
-/

namespace SqlMapper.Markup

namespace Element

theorem mem_preorderAll {x : Element} {es : List Element} :
    x ∈ preorderAll es ↔ ∃ e ∈ es, x ∈ e.preorder := by
  induction es with
  | nil => simp [preorderAll]
  | cons e es ih => simp [preorderAll, ih]

/-- The attribute values of the element and of all elements inside it lie in a text of `n`
bytes. -/
def Within (n : Nat) (e : Element) : Prop :=
  ∀ x ∈ e.preorder, ∀ a ∈ x.attributes, a.span.Within n

theorem Within.mk {n : Nat} {tag : String} {attributes : List Attribute} {span : Span}
    {children : List Element} (hattributes : ∀ a ∈ attributes, a.span.Within n)
    (hchildren : ∀ e ∈ children, e.Within n) : Within n ⟨tag, attributes, span, children⟩ := by
  intro x hx
  rw [preorder] at hx
  rcases List.mem_cons.1 hx with rfl | hx
  · exact hattributes
  · obtain ⟨e, he, hmem⟩ := mem_preorderAll.1 hx
    exact hchildren e he x hmem

end Element

namespace Workbench

variable {n : Nat}

/-- The attributes met so far have their values in a text of `n` bytes: those of the tag being
read, of the open elements and of everything finished. -/
structure Within (n : Nat) (w : Workbench) : Prop where
  attributes : ∀ raw ∈ w.attributes, raw.2.2.Within n
  opened : ∀ o ∈ w.opened,
    (∀ a ∈ o.attributes, a.span.Within n) ∧ ∀ e ∈ o.children, e.Within n
  roots : ∀ e ∈ w.roots, e.Within n

theorem within_empty : empty.Within n where
  attributes := by simp [empty]
  opened := by simp [empty]
  roots := by simp [empty]

theorem ensures_resolveAttribute (scope : Scope) (raw : QualifiedName × String × Span) :
    Ensures (resolveAttribute scope raw) fun a => a.span = raw.2.2 := by
  obtain ⟨name, value, span⟩ := raw
  unfold resolveAttribute
  refine Ensures.ite (fun _ => Ensures.ok rfl) fun _ => ?_
  refine Ensures.ite (fun _ => Ensures.ok rfl) fun _ => ?_
  exact Ensures.bind (fun _ _ => trivial) fun _ _ => Ensures.ok rfl

theorem ensures_resolveAttributes (scope : Scope) {raws : List (QualifiedName × String × Span)}
    {done : List Attribute} (hraws : ∀ raw ∈ raws, raw.2.2.Within n)
    (hdone : ∀ a ∈ done, a.span.Within n) :
    Ensures (resolveAttributes scope raws done) fun as => ∀ a ∈ as, a.span.Within n := by
  induction raws generalizing done with
  | nil =>
    refine Ensures.ok fun a ha => ?_
    exact hdone a (List.mem_reverse.1 ha)
  | cons raw raws ih =>
    obtain ⟨hraw, hrest⟩ := List.forall_mem_cons.1 hraws
    unfold resolveAttributes
    refine Ensures.bind (ensures_resolveAttribute scope raw) fun a ha => ?_
    refine Ensures.ite (fun _ => Ensures.error) fun _ => ?_
    exact ih hrest (List.forall_mem_cons.2 ⟨ha ▸ hraw, hdone⟩)

theorem ensures_addAttribute {w : Workbench} (hw : w.Within n) (name : QualifiedName)
    (value : String) {span : Span} (hspan : span.Within n) :
    Ensures (w.addAttribute name value span) (Within n) := by
  unfold addAttribute
  refine Ensures.ite (fun _ => ?_) fun _ => Ensures.ite (fun _ => ?_) fun _ => ?_
  · unfold declareNamed
    refine Ensures.ite (fun _ => Ensures.error) fun _ => ?_
    refine Ensures.ite (fun _ => Ensures.error) fun _ => ?_
    refine Ensures.ite (fun _ => Ensures.error) fun _ => ?_
    exact Ensures.ite (fun _ => Ensures.ok hw) fun _ =>
      Ensures.ok ⟨hw.attributes, hw.opened, hw.roots⟩
  · unfold declareDefault
    exact Ensures.ite (fun _ => Ensures.error) fun _ =>
      Ensures.ok ⟨hw.attributes, hw.opened, hw.roots⟩
  · exact Ensures.ok ⟨List.forall_mem_cons.2 ⟨hspan, hw.attributes⟩, hw.opened, hw.roots⟩

theorem ensures_finishTag {w : Workbench} (hw : w.Within n) :
    Ensures w.finishTag fun r => (∀ a ∈ r.2.2.1, a.span.Within n) ∧ r.2.2.2.Within n := by
  unfold finishTag
  split
  · have hraws : ∀ raw ∈ w.attributes.reverse, raw.2.2.Within n := fun raw hraw =>
      hw.attributes raw (List.mem_reverse.1 hraw)
    refine Ensures.bind (ensures_resolveAttributes w.scope hraws (by simp)) fun attributes h => ?_
    exact Ensures.ok ⟨h, by simp, hw.opened, hw.roots⟩
  · exact Ensures.error

theorem within_addElement {w : Workbench} (hw : w.Within n) {e : Element} (he : e.Within n) :
    (w.addElement e).Within n := by
  unfold addElement
  split
  · exact ⟨hw.attributes, hw.opened, List.forall_mem_cons.2 ⟨he, hw.roots⟩⟩
  · next o os hopened =>
    have hall := hw.opened
    rw [hopened] at hall
    obtain ⟨ho, hos⟩ := List.forall_mem_cons.1 hall
    refine ⟨hw.attributes, List.forall_mem_cons.2 ⟨⟨ho.1, ?_⟩, hos⟩, hw.roots⟩
    exact List.forall_mem_cons.2 ⟨he, ho.2⟩

theorem ensures_close {w : Workbench} (hw : w.Within n) (name : QualifiedName) (stop : Nat) :
    Ensures (w.close name stop) (Within n) := by
  unfold close
  split
  · exact Ensures.error
  · next o os hopened =>
    have hall := hw.opened
    rw [hopened] at hall
    obtain ⟨ho, hos⟩ := List.forall_mem_cons.1 hall
    refine Ensures.ite (fun _ => Ensures.ok ?_) fun _ => Ensures.error
    have hrest : Within n { w with opened := os } := ⟨hw.attributes, hos, hw.roots⟩
    refine within_addElement hrest (Element.Within.mk ho.1 ?_)
    intro e he
    exact ho.2 e (List.mem_reverse.1 he)

theorem ensures_step {w : Workbench} (hw : w.Within n) {event : Event} (hevent : event.Within n) :
    Ensures (w.step event) (Within n) := by
  cases event with
  | tag name start =>
    exact Ensures.ite (fun _ => Ensures.error) fun _ =>
      Ensures.ok ⟨hw.attributes, hw.opened, hw.roots⟩
  | «attribute» name value span => exact ensures_addAttribute hw name value hevent
  | tagOpen stop =>
    refine Ensures.bind (ensures_finishTag hw) ?_
    rintro ⟨tag, scope, attributes, w'⟩ ⟨hattributes, hw'⟩
    refine Ensures.bind (fun _ _ => trivial) fun _ _ => Ensures.ok ?_
    exact ⟨hw'.attributes, List.forall_mem_cons.2 ⟨⟨hattributes, by simp⟩, hw'.opened⟩, hw'.roots⟩
  | tagEmpty stop =>
    refine Ensures.bind (ensures_finishTag hw) ?_
    rintro ⟨tag, scope, attributes, w'⟩ ⟨hattributes, hw'⟩
    refine Ensures.bind (fun _ _ => trivial) fun _ _ => Ensures.ok ?_
    exact within_addElement hw' (Element.Within.mk hattributes (by simp))
  | endTag name stop =>
    refine Ensures.bind (ensures_finishTag hw) ?_
    rintro ⟨tag, scope, attributes, w'⟩ ⟨-, hw'⟩
    exact ensures_close hw' name stop
  | entityStart => exact Ensures.ok ⟨hw.attributes, hw.opened, hw.roots⟩
  | entityStop =>
    simp only [step]
    split
    · exact Ensures.ok hw
    · exact Ensures.ok ⟨hw.attributes, hw.opened, hw.roots⟩

/-- No run of events brings in a place outside the text. -/
theorem ensures_foldlM {events : List Event} (hevents : ∀ e ∈ events, e.Within n)
    {w : Workbench} (hw : w.Within n) : Ensures (events.foldlM step w) (Within n) := by
  induction events generalizing w with
  | nil => exact Ensures.ok hw
  | cons event events ih =>
    obtain ⟨hevent, hrest⟩ := List.forall_mem_cons.1 hevents
    rw [List.foldlM_cons]
    exact Ensures.bind (ensures_step hw hevent) fun _ hnext => ih hrest hnext

theorem ensures_root {w : Workbench} (hw : w.Within n) : Ensures w.root (Element.Within n) := by
  unfold root
  split
  · next e es _ hroots =>
    have hmem : e ∈ w.roots.reverse := hroots ▸ List.mem_cons_self
    exact Ensures.ok (hw.roots e (List.mem_reverse.1 hmem))
  · exact Ensures.error

end Workbench

/-- The attribute values of a parsed document lie in its text. -/
theorem ensures_parse (text : String) :
    Ensures (parse text) (Element.Within (Text.byteLength text)) := by
  unfold parse
  refine Ensures.bind (ensures_readEvents text.toList) fun events hevents => ?_
  refine Ensures.bind (Workbench.ensures_foldlM hevents Workbench.within_empty) fun w hw => ?_
  exact Workbench.ensures_root hw

end SqlMapper.Markup

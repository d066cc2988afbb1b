import SqlMapper.Markup.Reader
import SqlMapper.Proofs.Markup.Cursor

/-!
# Places of attribute values

Every attribute value that the reader of a document reports has its place in the text of the
document. This holds for attributes inside entities as well: the text of an entity is a part of the
document, and places in it are places in the declaration of the entity.

## Main definitions

* `Event.Within`, `Progress.Within`: places that lie in a text of a given length.

## Main statements

* `ensures_readAttribute`: the value of an attribute lies behind the start of the attribute.
* `ensures_readContent`: reading content keeps places in the text.
* `ensures_readEvents`: the attribute values of a document lie in its text.
-/

namespace SqlMapper.Markup

open Cursor

/-! ### Comments, instructions and the document type -/

theorem ensures_readComment (c : Cursor) : Ensures (readComment c) (c.Leads ·) := by
  unfold readComment
  refine Ensures.bind (ensures_takeUntil _ _) ?_
  rintro ⟨text, after⟩ hafter
  exact Ensures.ite (fun _ => Ensures.error) fun _ => Ensures.ok ((leads_skip c 4).trans hafter)

theorem ensures_readInstruction (c : Cursor) : Ensures (readInstruction c) (c.Leads ·) := by
  unfold readInstruction
  refine Ensures.ite (fun _ => Ensures.error) fun _ => ?_
  refine Ensures.bind (ensures_name _) ?_
  rintro ⟨name, afterName⟩ hname
  refine Ensures.bind (ensures_takeUntil _ _) ?_
  rintro ⟨text, after⟩ hafter
  exact Ensures.ok (((leads_skip c 2).trans hname).trans
    ((leads_skipSpaces afterName).trans hafter))

theorem ensures_readMisc (fuel : Nat) (c : Cursor) : Ensures (readMisc fuel c) (c.Leads ·) := by
  induction fuel generalizing c with
  | zero => exact Ensures.ok (Leads.refl c)
  | succ fuel ih =>
    have hspaces := leads_skipSpaces c
    unfold readMisc
    refine Ensures.ite (fun _ => ?_) fun _ => Ensures.ite (fun _ => ?_) fun _ => Ensures.ok hspaces
    · refine Ensures.bind (ensures_readComment _) fun after hafter => ?_
      exact (hspaces.trans hafter).ensures (ih after)
    · refine Ensures.bind (ensures_readInstruction _) fun after hafter => ?_
      exact (hspaces.trans hafter).ensures (ih after)

/-- The written value of an attribute lies between the start of the attribute and the cursor
behind it. A start that is counted with cut-off lengths lies further to the left, not to the
right. -/
theorem ensures_readAttribute (c : Cursor) :
    Ensures (readAttribute c) fun r => c.Leads r.2 ∧ r.1.span.Within c.stop := by
  unfold readAttribute
  refine Ensures.bind (ensures_qualifiedName c) ?_
  rintro ⟨name, afterName⟩ hname
  refine Ensures.bind (ensures_expect_leads _ _) fun equals hequals => ?_
  have hafterEquals : afterName.Leads equals.skipSpaces :=
    ((leads_skipSpaces afterName).trans hequals).trans (leads_skipSpaces equals)
  refine Ensures.bind (ensures_quote _) ?_
  rintro ⟨mark, valueStart⟩ ⟨hquote, hquoteOffset, hmark⟩
  refine Ensures.bind (ensures_takeAllowedWhile _ _) ?_
  rintro ⟨value, valueStop⟩ hvalue
  refine Ensures.bind (ensures_expect _ _) ?_
  rintro after ⟨hafter, hafterOffset⟩
  have hleads : c.Leads after :=
    (hname.trans hafterEquals).trans ((hquote.trans hvalue).trans hafter)
  refine Ensures.ok ⟨hleads, ?_, ?_⟩
  · have hmarkLength : Chars.byteLength (String.singleton mark).toList = 1 := by
      simpa using hmark
    have hnameOffset := hname.offset_le
    have hequalsOffset := hafterEquals.offset_le
    have hvalueOffset := hvalue.offset_le
    simp only at *
    omega
  · have hstop := hleads.offset_le_stop
    simp only
    omega

theorem ensures_readDeclaration (c : Cursor) : Ensures (readDeclaration c) (c.Leads ·) := by
  unfold readDeclaration
  extract_lets separated finish standalone
  have hseparated : ∀ d, Ensures (separated d) (d.Leads ·) := by
    intro d
    unfold separated
    split
    · exact Ensures.ite (fun _ => Ensures.ok (leads_skipSpaces d)) fun _ =>
        Ensures.ite (fun _ => Ensures.ok (Leads.refl d)) fun _ => Ensures.error
    · exact Ensures.ok (Leads.refl d)
  have hfinish : ∀ d, Ensures (finish d) (d.Leads ·) := fun d =>
    (leads_skipSpaces d).ensures (ensures_expect_leads _ _)
  have hstandalone : ∀ d, Ensures (standalone d) (d.Leads ·) := by
    intro d
    refine Ensures.ite (fun _ => ?_) fun _ => hfinish d
    refine Ensures.bind (ensures_readAttribute d) ?_
    rintro ⟨raw, after⟩ ⟨hafter, -⟩
    exact hafter.ensures (hfinish after)
  refine Ensures.bind (hseparated _) fun version hversion => ?_
  refine Ensures.ite (fun _ => Ensures.error) fun _ => ?_
  refine Ensures.bind (ensures_readAttribute version) ?_
  rintro ⟨raw, afterVersion⟩ ⟨hafterVersion, -⟩
  refine Ensures.bind (hseparated afterVersion) fun encoding hencoding => ?_
  have hleads : c.Leads encoding :=
    ((leads_skip c 5).trans hversion).trans (hafterVersion.trans hencoding)
  refine Ensures.ite (fun _ => ?_) fun _ => hleads.ensures (hstandalone encoding)
  refine Ensures.bind (ensures_readAttribute encoding) ?_
  rintro ⟨raw, afterEncoding⟩ ⟨hafterEncoding, -⟩
  refine Ensures.bind (hseparated afterEncoding) fun next hnext => ?_
  exact (hleads.trans (hafterEncoding.trans hnext)).ensures (hstandalone next)

theorem ensures_readExternalId (c : Cursor) : Ensures (readExternalId c) (c.Leads ·) := by
  unfold readExternalId
  extract_lets literal
  have hliteral : ∀ d, Ensures (literal d) (d.Leads ·) := by
    intro d
    refine Ensures.bind (ensures_demandSpaces d) fun spaced hspaced => ?_
    refine Ensures.bind (ensures_quote spaced) ?_
    rintro ⟨mark, start⟩ ⟨hstart, -, -⟩
    refine Ensures.bind (ensures_quoted start mark) ?_
    rintro ⟨text, after⟩ ⟨hafter, -⟩
    exact Ensures.ok ((hspaced.trans hstart).trans hafter)
  have hskip := leads_skip c 6
  refine Ensures.ite (fun _ => hskip.ensures (hliteral _)) fun _ => ?_
  refine Ensures.ite (fun _ => ?_) fun _ => Ensures.ok (Leads.refl c)
  refine Ensures.bind (hliteral _) fun next hnext => ?_
  exact (hskip.trans hnext).ensures (hliteral next)

/-- The text of a declared entity is a part of the text around its declaration. -/
theorem ensures_readEntity (c : Cursor) :
    Ensures (readEntity c) fun r => c.Leads r.2 ∧ ∀ e ∈ r.1, e.text.stop ≤ c.stop := by
  unfold readEntity
  refine Ensures.bind (ensures_demandSpaces _) fun spaced hspaced => ?_
  have hleads : c.Leads spaced := (leads_skip c 8).trans hspaced
  extract_lets finish declaration
  have hfinish : ∀ declared after, c.Leads after → (∀ e ∈ declared, e.text.stop ≤ c.stop) →
      Ensures (finish (declared, after)) fun r =>
        c.Leads r.2 ∧ ∀ e ∈ r.1, e.text.stop ≤ c.stop := by
    intro declared after hafter hdeclared
    refine Ensures.bind (ensures_expect_leads _ _) fun last hlast => ?_
    exact Ensures.ok ⟨hafter.trans ((leads_skipSpaces after).trans hlast), hdeclared⟩
  have hdeclaration : ∀ general d, c.Leads d →
      Ensures (declaration (general, d)) fun r =>
        c.Leads r.2 ∧ ∀ e ∈ r.1, e.text.stop ≤ c.stop := by
    intro general d hd
    refine Ensures.bind (ensures_name d) ?_
    rintro ⟨name, afterName⟩ hname
    refine Ensures.bind (ensures_demandSpaces afterName) fun value hvalue => ?_
    have hvalue' : c.Leads value := (hd.trans hname).trans hvalue
    split
    case h_1 | h_2 =>
      refine Ensures.bind (ensures_quote value) ?_
      rintro ⟨mark, start⟩ ⟨hstart, -, -⟩
      refine Ensures.bind (ensures_quoted start mark) ?_
      rintro ⟨text, after⟩ ⟨hafter, htext⟩
      have hstart' : c.Leads start := hvalue'.trans hstart
      refine hfinish _ after (hstart'.trans hafter) ?_
      rintro e ⟨⟩
      exact hstart'.stop_eq ▸ stop_le_of_prefix htext
    case h_3 | h_4 =>
      refine Ensures.bind (ensures_readExternalId value) fun after hafter => ?_
      have hafter' : c.Leads after := hvalue'.trans hafter
      refine Ensures.ite (fun _ => Ensures.error) fun _ => ?_
      refine Ensures.ite (fun _ => ?_) fun _ => hfinish none after hafter' (by simp)
      refine Ensures.bind (ensures_demandSpaces _) fun unparsed hunparsed => ?_
      refine Ensures.bind (ensures_name _) ?_
      rintro ⟨name, last⟩ hlast
      refine hfinish none last ?_ (by simp)
      exact hafter'.trans (((leads_skipSpaces after).trans (leads_skip _ 5)).trans
        (hunparsed.trans hlast))
    case h_5 => exact Ensures.error
  refine Ensures.ite (fun _ => ?_) fun _ => hdeclaration true spaced hleads
  refine Ensures.bind (ensures_demandSpaces _) fun next hnext => ?_
  exact hdeclaration false next (hleads.trans ((leads_skip spaced 1).trans hnext))

/-- The texts of the entities of a document type are parts of the text around it. -/
theorem ensures_readSubset (fuel : Nat) {n : Nat} {c : Cursor} {found : List Entity}
    (hc : c.stop ≤ n) (hfound : ∀ e ∈ found, e.text.stop ≤ n) :
    Ensures (readSubset fuel c found) fun r => c.Leads r.2 ∧ ∀ e ∈ r.1, e.text.stop ≤ n := by
  induction fuel generalizing c found with
  | zero => exact Ensures.ok ⟨Leads.refl c, by simpa using hfound⟩
  | succ fuel ih =>
    have hspaces := leads_skipSpaces c
    -- What is read on goes on from a cursor in the same text.
    have hnext : ∀ d found, c.Leads d → (∀ e ∈ found, e.text.stop ≤ n) →
        Ensures (readSubset fuel d found) fun r =>
          c.Leads r.2 ∧ ∀ e ∈ r.1, e.text.stop ≤ n := by
      intro d found hd hfound
      exact (ih (hd.stop_eq ▸ hc) hfound).mono fun _ h => ⟨hd.trans h.1, h.2⟩
    unfold readSubset
    refine Ensures.ite (fun _ => Ensures.ok ⟨Leads.refl c, by simpa using hfound⟩) fun _ => ?_
    refine Ensures.ite (fun _ => ?_) fun _ => Ensures.ite (fun _ => ?_) fun _ =>
      Ensures.ite (fun _ => ?_) fun _ => Ensures.ite (fun _ => ?_) fun _ =>
      Ensures.ite (fun _ => ?_) fun _ => Ensures.error
    · refine Ensures.bind (ensures_readEntity _) ?_
      rintro ⟨declared, after⟩ ⟨hafter, hdeclared⟩
      refine hnext after _ (hspaces.trans hafter) ?_
      intro e he
      rcases List.mem_append.1 he with he | he
      · have hstop := hdeclared e (by simpa using he)
        have := hspaces.stop_eq
        omega
      · exact hfound e he
    · refine Ensures.bind (ensures_readComment _) fun after hafter => ?_
      exact hnext after found (hspaces.trans hafter) hfound
    · refine Ensures.bind (ensures_readInstruction _) fun after hafter => ?_
      exact hnext after found (hspaces.trans hafter) hfound
    · refine Ensures.bind (ensures_expect_leads _ _) fun after hafter => ?_
      refine Ensures.ok ⟨?_, by simpa using hfound⟩
      exact hspaces.trans (((leads_skip _ 1).trans (leads_skipSpaces _)).trans hafter)
    · refine Ensures.bind (ensures_quoted _ _) ?_
      rintro ⟨text, after⟩ ⟨hafter, -⟩
      exact hnext after found (hspaces.trans hafter) hfound

theorem ensures_readDocumentType (c : Cursor) :
    Ensures (readDocumentType c) fun r => c.Leads r.2 ∧ ∀ e ∈ r.1, e.text.stop ≤ c.stop := by
  unfold readDocumentType
  refine Ensures.bind (ensures_demandSpaces _) fun spaced hspaced => ?_
  refine Ensures.bind (ensures_name spaced) ?_
  rintro ⟨name, afterName⟩ hname
  refine Ensures.bind (ensures_readExternalId _) fun external hexternal => ?_
  have hleads : c.Leads external.skipSpaces :=
    (((leads_skip c 9).trans hspaced).trans (hname.trans (leads_skipSpaces afterName))).trans
      (hexternal.trans (leads_skipSpaces external))
  simp only
  split
  · exact Ensures.ok ⟨hleads.trans (leads_skip _ 1), by simp⟩
  · have hbracket := hleads.trans (leads_skip _ 1)
    refine (ensures_readSubset _ (Nat.le_of_eq hbracket.stop_eq) (by simp)).mono fun _ h => ?_
    exact ⟨hbracket.trans h.1, h.2⟩
  · exact Ensures.error

/-! ### Tags and content -/

/-- The place that an event reports of an attribute value lies in a text of `n` bytes. -/
def Event.Within (n : Nat) : Event → Prop
  | .attribute _ _ span => span.Within n
  | _ => True

/-- What has been read of a text of `n` bytes: the cursor reads no further than its end, and the
places reported lie in it. -/
structure Progress.Within (n : Nat) (p : Progress) : Prop where
  cursor : p.cursor.stop ≤ n
  events : ∀ e ∈ p.events, e.Within n

section Content

variable {n : Nat} {value : List Char → Nat → Except Fault (List Char × Nat)}

/-- Moving on keeps what has been read. -/
theorem Progress.Within.advance {p : Progress} (hp : p.Within n) {d : Cursor}
    (hd : p.cursor.Leads d) : d.stop ≤ n :=
  hd.stop_eq ▸ hp.cursor

theorem ensures_readTagRest (fuel : Nat) {p : Progress} (hp : p.Within n) :
    Ensures (readTagRest value fuel p) (Progress.Within n) := by
  induction fuel generalizing p with
  | zero => exact Ensures.ok hp
  | succ fuel ih =>
    have hspaces := leads_skipSpaces p.cursor
    unfold readTagRest
    refine Ensures.ite (fun _ => Ensures.ok hp) fun _ => ?_
    simp only
    split
    · exact Ensures.error
    · refine Ensures.bind (ensures_expect_leads _ _) fun after hafter => ?_
      have hstop := hp.advance (hspaces.trans ((leads_skip _ 1).trans hafter))
      exact Ensures.ok ⟨hstop, List.forall_mem_cons.2 ⟨trivial, hp.events⟩⟩
    · have hstop := hp.advance (hspaces.trans (leads_skip _ 1))
      exact Ensures.ok ⟨hstop, List.forall_mem_cons.2 ⟨trivial, hp.events⟩⟩
    · refine Ensures.ite (fun _ => Ensures.error) fun _ => ?_
      refine Ensures.bind (ensures_readAttribute _) ?_
      rintro ⟨raw, after⟩ ⟨hafter, hspan⟩
      refine Ensures.bind (fun _ _ => trivial) ?_
      rintro ⟨decoded, references⟩ -
      have hstop := hp.advance (hspaces.trans hafter)
      have hevent : raw.span.Within n := ⟨hspan.1, Nat.le_trans hspan.2 (hp.advance hspaces)⟩
      exact ih ⟨hstop, List.forall_mem_cons.2 ⟨hevent, hp.events⟩⟩

theorem ensures_readTag {p : Progress} (hp : p.Within n) :
    Ensures (readTag value p) (Progress.Within n) := by
  unfold readTag
  refine Ensures.bind (ensures_qualifiedName _) ?_
  rintro ⟨name, after⟩ hafter
  have hstop := hp.advance ((leads_skip _ 1).trans hafter)
  exact ensures_readTagRest _ ⟨hstop, List.forall_mem_cons.2 ⟨trivial, hp.events⟩⟩

theorem ensures_readEndTag {p : Progress} (hp : p.Within n) :
    Ensures (readEndTag p) (Progress.Within n) := by
  unfold readEndTag
  refine Ensures.bind (ensures_qualifiedName _) ?_
  rintro ⟨name, after⟩ hafter
  refine Ensures.bind (ensures_expect_leads _ _) fun last hlast => ?_
  have hstop := hp.advance (((leads_skip _ 2).trans hafter).trans
    ((leads_skipSpaces after).trans hlast))
  exact Ensures.ok ⟨hstop, List.forall_mem_cons.2 ⟨trivial, hp.events⟩⟩

theorem ensures_findEntity (entities : List Entity) (name : List Char) :
    Ensures (findEntity entities name) (· ∈ entities) := by
  unfold findEntity
  split
  · next e he => exact Ensures.ok (List.mem_of_find?_eq_some he)
  · exact Ensures.error

/-- The events of the entities that a text refers to are those of their texts. -/
theorem ensures_readReferences {entities : List Entity} {nested : Bool}
    {inner : Cursor → List Event → Nat → Except Fault (List Event × Nat)}
    (hentities : ∀ e ∈ entities, e.text.stop ≤ n)
    (hinner : ∀ text events used, text.stop ≤ n → (∀ e ∈ events, e.Within n) →
      Ensures (inner text events used) fun r => ∀ e ∈ r.1, e.Within n)
    (fuel : Nat) (cs : List Char) {events : List Event} (hevents : ∀ e ∈ events, e.Within n)
    (used : Nat) :
    Ensures (readReferences entities nested inner fuel cs events used) fun r =>
      ∀ e ∈ r.1, e.Within n := by
  fun_induction readReferences entities nested inner fuel cs events used with
  | case1 => exact Ensures.ok hevents
  | case2 => exact Ensures.ok hevents
  | case3 fuel cs events used rest c hreference ih => exact ih hevents
  | case4 fuel cs events used rest name hreference ih =>
    refine Ensures.bind (ensures_findEntity entities name) fun e he => ?_
    refine Ensures.bind (fun _ _ => trivial) fun used _ => ?_
    have hstart : ∀ x ∈ Event.entityStart :: events, x.Within n :=
      List.forall_mem_cons.2 ⟨trivial, hevents⟩
    refine Ensures.bind (hinner e.text _ used (hentities e he) hstart) ?_
    rintro ⟨found, used⟩ hfound
    exact ih found used (List.forall_mem_cons.2 ⟨trivial, hfound⟩)
  | case5 => exact Ensures.error
  | case6 fuel c cs events used hc ih => exact ih hevents

/-- Each construct of content keeps places in the text, and so does content as a whole. -/
theorem ensures_readContentWith
    {references : List Char → List Event → Nat → Except Fault (List Event × Nat)}
    (hreferences : ∀ cs events used, (∀ e ∈ events, e.Within n) →
      Ensures (references cs events used) fun r => ∀ e ∈ r.1, e.Within n)
    (fuel : Nat) {p : Progress} (hp : p.Within n) :
    Ensures (readContentWith value references fuel p) (Progress.Within n) := by
  induction fuel generalizing p with
  | zero => exact Ensures.ok hp
  | succ fuel ih =>
    unfold readContentWith
    refine Ensures.ite (fun _ => Ensures.ok hp) fun _ => ?_
    -- The cases in the order in which the reader tells the constructs apart.
    refine Ensures.ite (fun _ => ?comment) fun _ => Ensures.ite (fun _ => ?characterData) fun _ =>
      Ensures.ite (fun _ => Ensures.error) fun _ => Ensures.ite (fun _ => ?instruction) fun _ =>
      Ensures.ite (fun _ => ?endTag) fun _ => Ensures.ite (fun _ => ?tag) fun _ => ?text
    case comment =>
      refine Ensures.bind (ensures_readComment _) fun after hafter => ?_
      exact ih ⟨hp.advance hafter, hp.events⟩
    case characterData =>
      refine Ensures.bind (ensures_takeUntil _ _) ?_
      rintro ⟨text, after⟩ hafter
      exact ih ⟨hp.advance ((leads_skip _ 9).trans hafter), hp.events⟩
    case instruction =>
      refine Ensures.bind (ensures_readInstruction _) fun after hafter => ?_
      exact ih ⟨hp.advance hafter, hp.events⟩
    case endTag => exact Ensures.bind (ensures_readEndTag hp) fun _ hnext => ih hnext
    case tag => exact Ensures.bind (ensures_readTag hp) fun _ hnext => ih hnext
    case text =>
      refine Ensures.bind (ensures_takeAllowedWhile _ _) ?_
      rintro ⟨text, after⟩ hafter
      refine Ensures.ite (fun _ => Ensures.error) fun _ => ?_
      refine Ensures.bind (hreferences text p.events p.references hp.events) ?_
      rintro ⟨events, used⟩ hevents
      exact ih ⟨hp.advance hafter, hevents⟩

/-- Reading content keeps places in the text, however deeply entities are nested. -/
theorem ensures_readContent {entities : List Entity}
    (hentities : ∀ e ∈ entities, e.text.stop ≤ n) (level : Nat) {p : Progress}
    (hp : p.Within n) : Ensures (readContent entities level p) (Progress.Within n) := by
  induction level generalizing p with
  | zero =>
    refine ensures_readContentWith (fun cs events used hevents => ?_) _ hp
    exact ensures_readReferences hentities (fun _ _ _ _ _ => Ensures.error) _ cs hevents used
  | succ level ih =>
    refine ensures_readContentWith (fun cs events used hevents => ?_) _ hp
    refine ensures_readReferences hentities ?_ _ cs hevents used
    -- The text of an entity is read with one level less, from the events met so far.
    intro text found used htext hfound
    refine Ensures.bind (ih ⟨htext, hfound⟩) fun q hq => ?_
    exact Ensures.ok hq.events

end Content

/-- The attribute values of a document lie in its text. -/
theorem ensures_readEvents (text : List Char) :
    Ensures (readEvents text) fun events =>
      ∀ e ∈ events, e.Within (Chars.byteLength text) := by
  unfold readEvents
  extract_lets fuel start first finish body prolog
  have hfinish : ∀ p : Progress, p.Within start.stop →
      Ensures (finish p) fun events => ∀ e ∈ events, e.Within start.stop := by
    intro p hp
    refine Ensures.bind (ensures_readMisc fuel p.cursor) fun c _ => ?_
    refine Ensures.ite (fun _ => Ensures.ok ?_) fun _ => Ensures.error
    intro e he
    exact hp.events e (List.mem_reverse.1 he)
  have hbody : ∀ entities c, start.Leads c → (∀ e ∈ entities, e.text.stop ≤ start.stop) →
      Ensures (body (entities, c)) fun events => ∀ e ∈ events, e.Within start.stop := by
    intro entities c hc hentities
    have hempty : Progress.Within start.stop ⟨[], 0, 0, c⟩ :=
      ⟨Nat.le_of_eq hc.stop_eq, fun _ he => absurd he List.not_mem_nil⟩
    refine Ensures.ite (fun _ => ?_) fun _ => hfinish _ hempty
    refine Ensures.bind ?_ hfinish
    exact Ensures.bind (ensures_readTag hempty) fun p hp =>
      ensures_readContent hentities maxNesting hp
  have hprolog : ∀ c, start.Leads c →
      Ensures (prolog c) fun events => ∀ e ∈ events, e.Within start.stop := by
    intro c hc
    refine Ensures.bind (ensures_readMisc fuel c) fun next hnext => ?_
    have hnext' := hc.trans hnext
    refine Ensures.ite (fun _ => ?_) fun _ => hbody [] next hnext' (by simp)
    refine Ensures.bind (ensures_readDocumentType next) ?_
    rintro ⟨entities, after⟩ ⟨hafter, hentities⟩
    refine Ensures.bind (ensures_readMisc fuel after) fun last hlast => ?_
    exact hbody entities last (hnext'.trans (hafter.trans hlast)) (hnext'.stop_eq ▸ hentities)
  have hfirst : start.Leads first := by
    unfold first
    split
    · exact leads_skip start 1
    · exact Leads.refl start
  have hstop : start.stop = Chars.byteLength text := Nat.zero_add _
  rw [← hstop]
  refine Ensures.ite (fun _ => ?_) fun _ => hprolog first hfirst
  exact Ensures.bind (ensures_readDeclaration first) fun c hc => hprolog c (hfirst.trans hc)

end SqlMapper.Markup

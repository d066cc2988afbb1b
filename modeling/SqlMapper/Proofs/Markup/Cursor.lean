import SqlMapper.Markup.Entity

/-!
# Moving cursors

Whatever is read from a cursor, the cursor behind it reads the rest of the same text, and its offset
has grown by the bytes read. Readers can fail, so what they do is said by what they ensure of a
result if there is one.

## Main definitions

* `Ensures`: what holds of every result of a reader.
* `Cursor.Leads`: from one cursor to another by reading.
* `Cursor.stop`: the offset at which the text of a cursor ends.

## Main statements

* `Ensures.bind`: reading one thing after the other.
* `Cursor.Leads.stop_eq`: reading does not change where the text ends.
-/

namespace SqlMapper.Markup

section Ensures

variable {α β : Type} {x y : Except Fault α} {f : α → Except Fault β} {P Q : α → Prop}
  {R : β → Prop}

/-- Every result of `x` satisfies `P`. -/
def Ensures (x : Except Fault α) (P : α → Prop) : Prop :=
  ∀ a, x = .ok a → P a

theorem Ensures.ok {a : α} (h : P a) : Ensures (.ok a) P := by
  intro b hb
  cases hb
  exact h

theorem Ensures.error {e : Fault} : Ensures (.error e) P := by
  intro b hb
  cases hb

/-- What follows a reader may rely on what the reader ensures. -/
theorem Ensures.bind (hx : Ensures x P) (hf : ∀ a, P a → Ensures (f a) R) :
    Ensures (x >>= f) R := by
  cases x with
  | error e => exact Ensures.error
  | ok a => exact hf a (hx a rfl)

theorem Ensures.mono (hx : Ensures x P) (h : ∀ a, P a → Q a) : Ensures x Q :=
  fun a ha => h a (hx a ha)

theorem Ensures.ite {b : Prop} [Decidable b] (hx : b → Ensures x P) (hy : ¬b → Ensures y P) :
    Ensures (if b then x else y) P := by
  split
  · next h => exact hx h
  · next h => exact hy h

end Ensures

namespace Cursor

/-- Reading leads from `c` to `d`: what is read on the way and what is left make up the text of
`c`, and the offsets count the bytes read. -/
def Leads (c d : Cursor) : Prop :=
  ∃ read, c.rest = read ++ d.rest ∧ d.offset = c.offset + Chars.byteLength read

/-- The offset at which the text of a cursor ends. -/
def stop (c : Cursor) : Nat :=
  c.offset + Chars.byteLength c.rest

theorem Leads.refl (c : Cursor) : c.Leads c :=
  ⟨[], rfl, rfl⟩

theorem Leads.trans {c d e : Cursor} (h : c.Leads d) (h' : d.Leads e) : c.Leads e := by
  obtain ⟨read, hrest, hoffset⟩ := h
  obtain ⟨read', hrest', hoffset'⟩ := h'
  refine ⟨read ++ read', by rw [hrest, hrest', List.append_assoc], ?_⟩
  rw [hoffset', hoffset, Chars.byteLength_append, Nat.add_assoc]

theorem Leads.offset_le {c d : Cursor} (h : c.Leads d) : c.offset ≤ d.offset := by
  obtain ⟨read, -, hoffset⟩ := h
  omega

/-- Reading does not change where the text ends. -/
theorem Leads.stop_eq {c d : Cursor} (h : c.Leads d) : d.stop = c.stop := by
  obtain ⟨read, hrest, hoffset⟩ := h
  rw [stop, stop, hrest, hoffset, Chars.byteLength_append, Nat.add_assoc]

theorem Leads.offset_le_stop {c d : Cursor} (h : c.Leads d) : d.offset ≤ c.stop :=
  h.stop_eq ▸ Nat.le_add_right _ _

/-- A cursor that reads only the beginning of a text does not read beyond the text. -/
theorem stop_le_of_prefix {c : Cursor} {text : List Char} (h : text <+: c.rest) :
    stop ⟨c.offset, text⟩ ≤ c.stop := by
  obtain ⟨rest, hrest⟩ := h
  have hlength : Chars.byteLength c.rest = Chars.byteLength text + Chars.byteLength rest := by
    rw [← hrest, Chars.byteLength_append]
  simp only [stop]
  omega

/-- What leads on from `d` leads on from every cursor in front of `d`. -/
theorem Leads.ensures {c d : Cursor} {x : Except Fault Cursor} (h : c.Leads d)
    (hx : Ensures x (d.Leads ·)) : Ensures x (c.Leads ·) :=
  hx.mono fun _ h' => h.trans h'

/-! ### Moving over characters -/

theorem leads_skip (c : Cursor) (n : Nat) : c.Leads (c.skip n) :=
  ⟨c.rest.take n, (List.take_append_drop n c.rest).symm, rfl⟩

theorem leads_takeWhile (c : Cursor) (p : Char → Bool) : c.Leads (c.takeWhile p).2 :=
  ⟨c.rest.takeWhile p, List.takeWhile_append_dropWhile.symm, rfl⟩

theorem leads_skipSpaces (c : Cursor) : c.Leads c.skipSpaces :=
  c.leads_takeWhile isSpace

theorem ensures_demandSpaces (c : Cursor) : Ensures c.demandSpaces (c.Leads ·) := by
  unfold demandSpaces
  split
  · exact Ensures.ite (fun _ => Ensures.ok c.leads_skipSpaces) fun _ => Ensures.error
  · exact Ensures.error

/-- The bytes of a text that is met are counted. -/
theorem ensures_expect (c : Cursor) (text : String) :
    Ensures (c.expect text) fun d =>
      c.Leads d ∧ d.offset = c.offset + Chars.byteLength text.toList := by
  unfold expect
  refine Ensures.ite (fun hlooks => Ensures.ok ⟨c.leads_skip _, ?_⟩) fun _ => Ensures.error
  have hprefix : text.toList <+: c.rest := List.isPrefixOf_iff_prefix.1 hlooks
  rw [skip, ← List.prefix_iff_eq_take.1 hprefix]

theorem ensures_expect_leads (c : Cursor) (text : String) :
    Ensures (c.expect text) (c.Leads ·) :=
  (c.ensures_expect text).mono fun _ h => h.1

theorem ensures_takeAllowedWhile (c : Cursor) (p : Char → Bool) :
    Ensures (c.takeAllowedWhile p) fun r => c.Leads r.2 := by
  unfold takeAllowedWhile
  have hleads := c.leads_takeWhile fun x => isAllowed x && p x
  simp only
  split
  · exact Ensures.ite (fun _ => Ensures.ok hleads) fun _ => Ensures.error
  · exact Ensures.ok hleads

theorem ensures_takeUntil (c : Cursor) (text : String) :
    Ensures (c.takeUntil text) fun r => c.Leads r.2 := by
  unfold takeUntil
  split
  · exact Ensures.error
  · exact Ensures.ite (fun _ => Ensures.ok (c.leads_skip _)) fun _ => Ensures.error

theorem ensures_name (c : Cursor) : Ensures c.name fun r => c.Leads r.2 := by
  unfold name
  split
  · exact Ensures.ite (fun _ => Ensures.ok (c.leads_takeWhile _)) fun _ => Ensures.error
  · exact Ensures.error

/-- A quoted text stands at the cursor. -/
theorem ensures_quoted (c : Cursor) (quote : Char) :
    Ensures (c.quoted quote) fun r => c.Leads r.2 ∧ r.1 <+: c.rest := by
  unfold quoted
  have hleads := c.leads_takeWhile (· != quote)
  exact Ensures.ite (fun _ => Ensures.error) fun _ =>
    Ensures.ok ⟨hleads.trans (leads_skip _ 1), List.takeWhile_prefix _⟩

/-- A quotation mark takes one byte. -/
theorem ensures_quote (c : Cursor) :
    Ensures c.quote fun r =>
      c.Leads r.2 ∧ r.2.offset = c.offset + 1 ∧ r.1.utf8Size = 1 := by
  unfold quote
  split
  · next x rest hrest =>
    refine Ensures.ite (fun hx => Ensures.ok ⟨c.leads_skip 1, ?_⟩) fun _ => Ensures.error
    have hsize : x.utf8Size = 1 := by
      rcases Bool.or_eq_true _ _ ▸ hx with h | h <;> rw [beq_iff_eq.1 h] <;> rfl
    simp [skip, hrest, hsize]
  · exact Ensures.error

theorem ensures_qualifiedName (c : Cursor) : Ensures c.qualifiedName fun r => c.Leads r.2 := by
  unfold qualifiedName
  have hfirst := c.leads_takeWhile fun x => isNameChar x && x != ':'
  simp only
  split
  · exact Ensures.ite (fun _ => Ensures.error) fun _ =>
      Ensures.ok (hfirst.trans ((leads_skip _ 1).trans (leads_takeWhile _ _)))
  · exact Ensures.ite (fun _ => Ensures.error) fun _ => Ensures.ok hfirst

end Cursor

end SqlMapper.Markup

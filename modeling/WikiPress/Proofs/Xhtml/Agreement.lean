import WikiPress.Proofs.Xhtml.Tracking

/-!
# WikiPress.Proofs.Xhtml.Agreement

What the XHTML writer still knows of a table behind it makes no difference.

Design points:

* Alignments, column and head are left over from the last table. They are read by the parts of
  a table only, and the opening of the next table sets them anew. So two states that agree but
  for them, outside of tables, write the same (`Agree.step`).
* An opening inside an image sets nothing anew. A table cannot stand there, because what is
  inside running text is running text.
-/

namespace WikiPress.Xhtml

open WikiPress.Markup

/-- The states agree on everything, but for a table that is over. -/
structure Agree (tags : List Tag) (s s' : State) : Prop where
  image : s'.image = s.image
  code : s'.code = s.code
  table : (∃ alignments, .table alignments ∈ tags) → s'.table = s.table

/-- The state at another place in another table. -/
def State.withTable (s : State) (table : TablePosition) : State := { s with table }

/-- Whether an event opens or closes a part of a table. -/
def readsTable : Event → Bool
  | .opening .tableHead | .opening .tableRow | .opening .tableCell => true
  | .closing .tableHead | .closing .tableRow | .closing .tableCell => true
  | _ => false

variable {p q : Position} {tags : List Tag} {s s' : State}
  {e : Event}

theorem Agree.refl (tags : List Tag) (s : State) : Agree tags s s := ⟨rfl, rfl, fun _ => rfl⟩

theorem Agree.eq_withTable (h : Agree tags s s') : s' = s.withTable s'.table := by
  obtain ⟨himage, hcode, -⟩ := h
  cases s'
  simp only [State.withTable] at himage hcode ⊢
  rw [himage, hcode]

theorem Agree.eq (h : Agree tags s s') (hin : ∃ alignments, .table alignments ∈ tags) :
    s' = s := by
  rw [h.eq_withTable, h.table hin]
  rfl

/-- Only tables and their parts read or set where the writer is in a table. -/
theorem step_withTable (hardLineBreak : Bool) (s : State) (table : TablePosition)
    (hreads : readsTable e = false) (hopen : ∀ alignments, e ≠ .opening (.table alignments)) :
    step hardLineBreak (s.withTable table) e =
      ((step hardLineBreak s e).1.withTable table, (step hardLineBreak s e).2) := by
  have himage : (s.withTable table).image = s.image := rfl
  have hcode : (s.withTable table).code = s.code := rfl
  cases e with
  | opening tag =>
      cases h : s.image with
      | some i => simp only [step, himage, h]; rfl
      | none =>
          simp only [step, himage, h]
          cases tag with
          | table alignments => exact absurd rfl (hopen alignments)
          | tableHead | tableRow | tableCell => cases hreads
          | _ => rfl
  | closing c =>
      cases h : s.image with
      | some i =>
          simp only [step, himage, h]
          cases c with
          | image => cases hdepth : i.depth <;> simp [PendingImage.leave, hdepth, State.withTable]
          | _ => rfl
      | none =>
          simp only [step, himage, h]
          cases c with
          | tableHead | tableRow | tableCell => cases hreads
          | codeBlock => cases hc : s.code <;> simp [closeTag, hc, State.withTable]
          | _ => rfl
  | text t =>
      cases hc : s.code <;> cases h : s.image <;> simp only [step, hcode, himage, hc, h] <;> rfl
  | code t | softBreak => cases h : s.image <;> simp [step, h, State.withTable]
  | _ => rfl

/-! ## Parts of tables -/

theorem inTable_of_part {outer inner : Content} {tag : Tag} (hin : outer.inside tag = some inner)
    (hpart : tag = .tableHead ∨ tag = .tableRow ∨ tag = .tableCell) : outer.inTable = true := by
  cases outer with
  | flow => rcases hpart with rfl | rfl | rfl <;> cases hin
  | inline => rcases hpart with rfl | rfl | rfl <;> cases hin
  | literal | raw => cases hin
  | _ => rfl

/-- Outside of tables none of their parts is opened or closed. -/
theorem readsTable_eq_false (hlinked : Linked p.content p.opened) (hstep : p.step e = some q)
    (hout : ¬ ∃ alignments, .table alignments ∈ p.tags) : readsTable e = false := by
  cases e with
  | opening tag =>
      obtain ⟨content, hin, -⟩ := Position.step_opening hstep
      have hpart : ¬ (tag = .tableHead ∨ tag = .tableRow ∨ tag = .tableCell) := fun hpart =>
        hout (hlinked.table_of_inTable (inTable_of_part hin hpart))
      cases tag with
      | tableHead | tableRow | tableCell => simp at hpart
      | _ => rfl
  | closing c =>
      obtain ⟨o, -, rfl, hopened, -⟩ := Position.step_closing hstep
      rw [hopened] at hlinked
      obtain ⟨⟨inner, hin, -⟩, hrest⟩ := hlinked
      have hpart : ¬ (o.tag = .tableHead ∨ o.tag = .tableRow ∨ o.tag = .tableCell) := by
        intro hpart
        obtain ⟨alignments, hmem⟩ := hrest.table_of_inTable (inTable_of_part hin hpart)
        refine hout ⟨alignments, ?_⟩
        rw [Position.tags, hopened]
        exact List.mem_cons_of_mem _ hmem
      cases htag : o.tag with
      | tableHead | tableRow | tableCell => simp [htag] at hpart
      | _ => rfl
  | _ => rfl

/-- A table that is open was open before, or is opened now. -/
theorem table_of_step (hstep : p.step e = some q) {alignments : List ColumnAlignment}
    (hmem : .table alignments ∈ q.tags) :
    e = .opening (.table alignments) ∨ .table alignments ∈ p.tags := by
  rw [← openStep_of_nestStep (Position.nestStep_of_step hstep)] at hmem
  cases e with
  | opening tag =>
      rcases List.mem_cons.1 hmem with heq | hmem
      · exact Or.inl (by rw [heq])
      · exact Or.inr hmem
  | closing c => exact Or.inr (List.mem_of_mem_tail hmem)
  | _ => exact Or.inr hmem

/-- The next event adds the same text to states that agree, and they agree behind it. -/
theorem Agree.step (hardLineBreak : Bool) (h : Agree p.tags s s')
    (hlinked : Linked p.content p.opened) (himage : s.image.isSome → p.content = .inline)
    (hstep : p.step e = some q) :
    (Xhtml.step hardLineBreak s' e).2 = (Xhtml.step hardLineBreak s e).2 ∧
      Agree q.tags (Xhtml.step hardLineBreak s e).1 (Xhtml.step hardLineBreak s' e).1 := by
  by_cases hin : ∃ alignments, .table alignments ∈ p.tags
  · rw [h.eq hin]
    exact ⟨rfl, Agree.refl _ _⟩
  · have hreads := readsTable_eq_false hlinked hstep hin
    by_cases hopen : ∃ alignments, e = .opening (.table alignments)
    · obtain ⟨alignments, rfl⟩ := hopen
      obtain ⟨content, hinside, -⟩ := Position.step_opening hstep
      obtain ⟨hflow, -⟩ := Content.inside_block hinside rfl (by simp)
      have hnone : s.image = none := by
        cases hs : s.image with
        | none => rfl
        | some i =>
            have hinline := himage (by rw [hs]; rfl)
            rw [hflow] at hinline
            cases hinline
      have hnone' : s'.image = none := h.image.trans hnone
      simp only [Xhtml.step, hnone, hnone', openTag]
      exact ⟨trivial, rfl, h.code, fun _ => rfl⟩
    · have hopen' : ∀ alignments, e ≠ .opening (.table alignments) := fun alignments heq =>
        hopen ⟨alignments, heq⟩
      rw [h.eq_withTable, step_withTable hardLineBreak s s'.table hreads hopen']
      refine ⟨rfl, rfl, rfl, ?_⟩
      rintro ⟨alignments, hmem⟩
      rcases table_of_step hstep hmem with heq | hmem
      · exact absurd heq (hopen' alignments)
      · exact absurd ⟨alignments, hmem⟩ hin

/-! ## Along a stream -/

/-- Where an image is open, there is only running text. -/
theorem Tracks.inline (h : Tracks p.tags s) (hlinked : Linked p.content p.opened)
    (himage : s.image.isSome) : p.content = .inline := by
  by_contra hne
  have hnone : s.image = none := by
    refine h.image_eq_none ?_
    intro tag htag
    obtain ⟨o, ho, rfl⟩ := List.mem_map.1 htag
    by_contra htrue
    have hinline : o.tag.isInline = true := by
      cases ht : o.tag with
      | image source title => rfl
      | _ => rw [ht] at htrue; exact absurd rfl htrue
    exact hne (hlinked.inline_of_mem ho hinline)
  rw [hnone] at himage
  cases himage

theorem Agree.run (hardLineBreak : Bool) {es : List Event} (h : Agree p.tags s s')
    (htracks : Tracks p.tags s) (hlinked : Linked p.content p.opened) (hrun : p.run es = some q) :
    (Xhtml.run hardLineBreak s' es).2 = (Xhtml.run hardLineBreak s es).2 := by
  induction es generalizing p s s' with
  | nil => rfl
  | cons e es ih =>
      rw [Position.run_cons] at hrun
      obtain ⟨mid, hstep, hrest⟩ := Option.bind_eq_some_iff.1 hrun
      obtain ⟨hpiece, hagree⟩ :=
        h.step hardLineBreak hlinked (htracks.inline hlinked) hstep
      have htracks' := htracks.step hardLineBreak (Position.nestStep_of_step hstep)
      rw [run_cons, run_cons, hpiece, ih hagree htracks' (hlinked.step hstep) hrest]

/-- Behind a document nothing is left to the writer but a table that is over. -/
theorem agree_of_balanced (hardLineBreak : Bool) {es : List Event} (h : Balanced es) :
    Agree [] .start (Xhtml.run hardLineBreak .start es).1 := by
  have htracks := tracks_start.run hardLineBreak (balanced_iff_nest.1 h)
  refine ⟨htracks.image_eq_none (by simp), htracks.code_eq_none (by simp), ?_⟩
  rintro ⟨alignments, hmem⟩
  cases hmem

/-- Two documents one behind the other are written as each is written alone. -/
theorem render_append (hardLineBreak : Bool) {as bs : List Event} (has : Balanced as)
    (hbs : WellShaped bs) :
    render hardLineBreak (as ++ bs) = render hardLineBreak as ++ render hardLineBreak bs := by
  have hpieces : (Xhtml.run hardLineBreak (Xhtml.run hardLineBreak .start as).1 bs).2 =
      pieces hardLineBreak bs :=
    (agree_of_balanced hardLineBreak has).run (p := .top) hardLineBreak tracks_start rfl hbs
  rw [render, pieces, run_append, String.join_append, hpieces]
  rfl

end WikiPress.Xhtml

import WikiPress.Proofs.Markup.Nesting

/-!
# WikiPress.Proofs.Markup.Shape

The shape of the streams documents have: what may stand inside what.

Design points:

* A `Content` says what may come next. Blocks hold blocks and running text alike, which
  covers the items of tight lists; running text holds running text only; a code block
  holds text only; a table is one head and then rows.
* A `Position` is the content at a point of a stream and the containers open there, each
  with the content that it was opened in. `Position.step` takes it past one event, or
  fails if the event may not stand there.
* A stream has the shape of a document if it leads from the top of a document back to
  it (`WellShaped`). Such a stream is balanced (`WellShaped.balanced`).
-/

namespace WikiPress.Markup

/-- What may come next at a point of a stream. -/
inductive Content
  /-- Blocks and running text. -/
  | flow
  /-- Running text. -/
  | inline
  /-- Text only. -/
  | literal
  /-- The lines of a raw block. -/
  | raw
  /-- The head of a table. -/
  | table
  /-- The rows of a table behind its head. -/
  | rows
  /-- The cells of a table's head. -/
  | headCells
  /-- The cells of a table's row. -/
  | bodyCells
  deriving DecidableEq, Repr

/-- Whether an event that opens and closes nothing is raw markup. -/
def Event.isRaw : Event → Bool
  | .html _ | .inlineHtml _ => true
  | _ => false

/-- Whether an event that opens and closes nothing may come next. -/
def Content.admits : Content → Event → Bool
  | .flow, _ => true
  | .inline, .html _ | .inline, .rule => false
  | .inline, _ => true
  | .literal, .text _ => true
  | .raw, .text _ | .raw, .html _ => true
  | _, _ => false

/-- What a block or a part of running text holds. -/
def Tag.content : Tag → Content
  | .blockQuote | .list _ | .item | .footnoteDefinition _ => .flow
  | .definitionList | .definitionDetails => .flow
  | .codeBlock _ | .metadata => .literal
  | .htmlBlock => .raw
  | .table _ => .table
  | .tableHead => .headCells
  | .tableRow => .bodyCells
  | _ => .inline

/-- What a container that comes next holds: none if it may not come next. -/
def Content.inside : Content → Tag → Option Content
  | .flow, .tableHead | .flow, .tableRow | .flow, .tableCell => none
  | .flow, tag => some tag.content
  | .inline, tag => if tag.isInline then some .inline else none
  | .table, .tableHead => some .headCells
  | .rows, .tableRow => some .bodyCells
  | .headCells, .tableCell | .bodyCells, .tableCell => some .inline
  | _, _ => none

/-- What may come next behind a container. -/
def Content.after : Content → Content
  | .table => .rows
  | content => content

/-- Whether a container may end here. -/
def Content.complete : Content → Bool
  | .table => false
  | _ => true

/-- An open container. -/
structure Opened where
  tag : Tag
  /-- The content the container was opened in. -/
  outer : Content
  deriving DecidableEq, Repr

/-- A point of a stream. -/
structure Position where
  content : Content
  /-- The open containers, innermost first. -/
  opened : List Opened
  deriving DecidableEq, Repr

namespace Position

/-- The top of a document. -/
def top : Position := ⟨.flow, []⟩

/-- The tags of the open containers, innermost first. -/
def tags (p : Position) : List Tag := p.opened.map Opened.tag

/-- The point behind one more event: none if the event may not stand here. -/
def step (p : Position) : Event → Option Position
  | .opening tag =>
      (p.content.inside tag).map fun content => ⟨content, ⟨tag, p.content⟩ :: p.opened⟩
  | .closing c =>
      match p.opened with
      | o :: rest =>
          if p.content.complete && o.tag.closing = c then some ⟨o.outer.after, rest⟩ else none
      | [] => none
  | e => if p.content.admits e then some p else none

/-- The point behind a stream. -/
def run (p : Position) (es : List Event) : Option Position := es.foldlM step p

theorem run_cons (p : Position) (e : Event) (es : List Event) :
    p.run (e :: es) = (p.step e).bind (·.run es) := rfl

theorem run_append (p : Position) (as bs : List Event) :
    p.run (as ++ bs) = (p.run as).bind (·.run bs) := by
  simp only [run, List.foldlM_append]
  rfl

/-- Inversion of a step past an opening. -/
theorem step_opening {p q : Position} {tag : Tag} (h : p.step (.opening tag) = some q) :
    ∃ content, p.content.inside tag = some content ∧
      q = ⟨content, ⟨tag, p.content⟩ :: p.opened⟩ := by
  obtain ⟨content, hin, hq⟩ := Option.map_eq_some_iff.1 h
  exact ⟨content, hin, hq.symm⟩

/-- Inversion of a step past a closing. -/
theorem step_closing {p q : Position} {c : Closing} (h : p.step (.closing c) = some q) :
    ∃ o, p.content.complete = true ∧ o.tag.closing = c ∧ p.opened = o :: q.opened ∧
      q.content = o.outer.after := by
  obtain ⟨content, opened⟩ := p
  cases opened with
  | nil => simp [step] at h
  | cons o rest =>
      simp only [step] at h
      split at h
      · next hc =>
          obtain rfl := Option.some.inj h
          simp only [Bool.and_eq_true, decide_eq_true_eq] at hc
          exact ⟨o, hc.1, hc.2, rfl, rfl⟩
      · cases h

/-- Inversion of a step past any other event. -/
theorem step_leaf {p q : Position} {e : Event} (he : e.isLeaf = true)
    (h : p.step e = some q) : p.content.admits e = true ∧ q = p := by
  have hstep : p.step e = if p.content.admits e then some p else none := by
    cases e with
    | opening tag => cases he
    | closing c => cases he
    | _ => rfl
  rw [hstep] at h
  split at h
  · next ha => exact ⟨ha, (Option.some.inj h).symm⟩
  · cases h

theorem nestStep_of_step {p q : Position} {e : Event} (h : p.step e = some q) :
    nestStep p.tags e = some q.tags := by
  cases e with
  | opening tag =>
      obtain ⟨content, -, rfl⟩ := step_opening h
      rfl
  | closing c =>
      obtain ⟨o, -, hc, ho, -⟩ := step_closing h
      simp [tags, ho, nestStep, hc]
  | _ =>
      obtain ⟨-, rfl⟩ := step_leaf rfl h
      rfl

theorem nest_of_run {p q : Position} {es : List Event} (h : p.run es = some q) :
    nest p.tags es = some q.tags := by
  induction es generalizing p with
  | nil => rw [Option.some.inj h, nest_nil]
  | cons e es ih =>
      rw [run_cons] at h
      obtain ⟨mid, hstep, hrest⟩ := Option.bind_eq_some_iff.1 h
      rw [nest_cons, nestStep_of_step hstep]
      exact ih hrest

end Position

/-- A stream has the shape of a document. -/
def WellShaped (es : List Event) : Prop := Position.top.run es = some Position.top

instance (es : List Event) : Decidable (WellShaped es) :=
  inferInstanceAs (Decidable (_ = _))

theorem WellShaped.balanced {es : List Event} (h : WellShaped es) : Balanced es :=
  balanced_iff_nest.2 (Position.nest_of_run h)

/-- A stream with the shape of a document has a position at each of its points. -/
theorem WellShaped.split {before after : List Event} (h : WellShaped (before ++ after)) :
    ∃ p, Position.top.run before = some p ∧ p.run after = some Position.top ∧
      openTags before = p.tags := by
  have hrun : (Position.top.run before).bind (·.run after) = some Position.top := by
    rw [← Position.run_append]
    exact h
  obtain ⟨p, hbefore, hafter⟩ := Option.bind_eq_some_iff.1 hrun
  exact ⟨p, hbefore, hafter, openTagsFrom_of_nest (Position.nest_of_run hbefore)⟩

/-! ## What is open -/

/-- Inversion of a container's content: what is opened in running text belongs to it. -/
theorem Content.inside_inline {tag : Tag} {inner : Content}
    (h : Content.inline.inside tag = some inner) : tag.isInline = true ∧ inner = .inline := by
  simp only [Content.inside] at h
  split at h
  · next ht => exact ⟨ht, (Option.some.inj h).symm⟩
  · cases h

/-- Inversion of a container's content outside running text. -/
theorem Content.inside_cases {outer inner : Content} {tag : Tag}
    (h : outer.inside tag = some inner) :
    (outer = .inline ∧ tag.isInline = true ∧ inner = .inline) ∨
      (outer = .flow ∧ inner = tag.content ∧
        tag ≠ .tableHead ∧ tag ≠ .tableRow ∧ tag ≠ .tableCell) ∨
      (outer = .table ∧ tag = .tableHead ∧ inner = .headCells) ∨
      (outer = .rows ∧ tag = .tableRow ∧ inner = .bodyCells) ∨
      ((outer = .headCells ∨ outer = .bodyCells) ∧ tag = .tableCell ∧ inner = .inline) := by
  cases outer with
  | inline => exact Or.inl ⟨rfl, Content.inside_inline h⟩
  | flow =>
      -- only the parts of a table do not stand in flow content
      right; left
      cases tag with
      | tableHead | tableRow | tableCell => cases h
      | _ => exact ⟨rfl, (Option.some.inj h).symm, by simp, by simp, by simp⟩
  | literal => cases h
  | raw => cases h
  | table =>
      cases tag with
      | tableHead => cases h; simp
      | _ => cases h
  | rows =>
      cases tag with
      | tableRow => cases h; simp
      | _ => cases h
  | headCells | bodyCells =>
      cases tag with
      | tableCell => cases h; simp
      | _ => cases h

/-- A block that is no part of a table stands among blocks. -/
theorem Content.inside_block {outer inner : Content} {tag : Tag}
    (h : outer.inside tag = some inner) (hinline : tag.isInline = false)
    (hpart : tag ≠ .tableHead ∧ tag ≠ .tableRow ∧ tag ≠ .tableCell) :
    outer = .flow ∧ inner = tag.content := by
  rcases Content.inside_cases h with ⟨-, ht, -⟩ | ⟨ho, hi, -⟩ | ⟨-, ht, -⟩ | ⟨-, ht, -⟩ | ⟨-, ht, -⟩
  · rw [hinline] at ht
    cases ht
  · exact ⟨ho, hi⟩
  · exact absurd ht hpart.1
  · exact absurd ht hpart.2.1
  · exact absurd ht hpart.2.2

/-- Every open container may stand where it was opened, and what comes next is of its
content, in front of or behind a head. -/
def Linked : Content → List Opened → Prop
  | content, [] => content = .flow
  | content, o :: rest =>
      (∃ inner, o.outer.inside o.tag = some inner ∧ (content = inner ∨ content = inner.after)) ∧
        Linked o.outer rest

theorem Linked.after {content : Content} {opened : List Opened} (h : Linked content opened) :
    Linked content.after opened := by
  cases opened with
  | nil =>
      obtain rfl : content = .flow := h
      rfl
  | cons o rest =>
      obtain ⟨⟨inner, hin, hcontent⟩, hrest⟩ := h
      refine ⟨⟨inner, hin, Or.inr ?_⟩, hrest⟩
      rcases hcontent with rfl | rfl
      · rfl
      · cases inner <;> rfl

theorem Linked.step {p q : Position} {e : Event} (h : Linked p.content p.opened)
    (hstep : p.step e = some q) : Linked q.content q.opened := by
  cases e with
  | opening tag =>
      obtain ⟨content, hin, rfl⟩ := Position.step_opening hstep
      exact ⟨⟨content, hin, Or.inl rfl⟩, h⟩
  | closing c =>
      obtain ⟨o, -, -, hopened, hcontent⟩ := Position.step_closing hstep
      rw [hopened] at h
      rw [hcontent]
      exact h.2.after
  | _ =>
      obtain ⟨-, rfl⟩ := Position.step_leaf rfl hstep
      exact h

theorem Linked.run {p q : Position} {es : List Event} (h : Linked p.content p.opened)
    (hrun : p.run es = some q) : Linked q.content q.opened := by
  induction es generalizing p with
  | nil =>
      obtain rfl := Option.some.inj hrun
      exact h
  | cons e es ih =>
      rw [Position.run_cons] at hrun
      obtain ⟨mid, hstep, hrest⟩ := Option.bind_eq_some_iff.1 hrun
      exact ih (h.step hstep) hrest

/-- Inside running text there is only running text. -/
theorem Linked.inline_of_mem {content : Content} {opened : List Opened} {o : Opened}
    (h : Linked content opened) (hmem : o ∈ opened) (hinline : o.tag.isInline = true) :
    content = .inline := by
  induction opened generalizing content with
  | nil => cases hmem
  | cons first rest ih =>
      obtain ⟨⟨inner, hin, hcontent⟩, hrest⟩ := h
      suffices hinner : inner = .inline by
        rcases hcontent with rfl | rfl
        · exact hinner
        · rw [hinner]
          rfl
      rcases List.mem_cons.1 hmem with rfl | hmem
      · rcases Content.inside_cases hin with ⟨-, -, h⟩ | ⟨-, h, -⟩ | ⟨-, ht, -⟩ | ⟨-, ht, -⟩ |
          ⟨-, ht, -⟩
        · exact h
        · rw [h]
          cases ht : o.tag <;> first | rfl | (rw [ht] at hinline; cases hinline)
        · rw [ht] at hinline
          cases hinline
        · rw [ht] at hinline
          cases hinline
        · rw [ht] at hinline
          cases hinline
      · rw [ih hrest hmem] at hin
        exact (Content.inside_inline hin).2

/-- Whether what comes next is a part of a table. -/
def Content.inTable : Content → Bool
  | .table | .rows | .headCells | .bodyCells => true
  | _ => false

/-- The parts of a table stand inside one. -/
theorem Linked.table_of_inTable {content : Content} {opened : List Opened}
    (h : Linked content opened) (hpart : content.inTable = true) :
    ∃ alignments, .table alignments ∈ opened.map Opened.tag := by
  induction opened generalizing content with
  | nil =>
      obtain rfl : content = .flow := h
      cases hpart
  | cons o rest ih =>
      obtain ⟨⟨inner, hin, hcontent⟩, hrest⟩ := h
      have hinner : inner.inTable = true := by
        rcases hcontent with rfl | rfl
        · exact hpart
        · cases inner <;> first | rfl | exact hpart
      have hrest' : o.outer.inTable = true →
          ∃ alignments, .table alignments ∈ (o :: rest).map Opened.tag := by
        intro houter
        obtain ⟨alignments, hmem⟩ := ih hrest houter
        exact ⟨alignments, List.mem_cons_of_mem _ hmem⟩
      rcases Content.inside_cases hin with ⟨-, -, hi⟩ | ⟨-, hi, hpart⟩ | ⟨ho, -, -⟩ | ⟨ho, -, -⟩ |
        ⟨-, -, hi⟩
      · rw [hi] at hinner
        cases hinner
      · -- among blocks only the table itself has parts
        cases ht : o.tag with
        | table alignments => exact ⟨alignments, by simp [ht]⟩
        | tableHead => exact absurd ht hpart.1
        | tableRow => exact absurd ht hpart.2.1
        | _ =>
            rw [hi, ht] at hinner
            cases hinner
      · exact hrest' (by rw [ho]; rfl)
      · exact hrest' (by rw [ho]; rfl)
      · rw [hi] at hinner
        cases hinner

/-- Where blocks may stand, only containers of blocks are open. -/
theorem Linked.flow_of_mem {opened : List Opened} {o : Opened} (h : Linked .flow opened)
    (hmem : o ∈ opened) : o.tag.content = .flow := by
  induction opened with
  | nil => cases hmem
  | cons first rest ih =>
      obtain ⟨⟨inner, hin, hcontent⟩, hrest⟩ := h
      obtain rfl : inner = .flow := by
        rcases hcontent with h | h
        · exact h.symm
        · cases inner <;> first | rfl | cases h
      rcases Content.inside_cases hin with ⟨-, -, hi⟩ | ⟨houter, hi, -⟩ | ⟨-, -, hi⟩ | ⟨-, -, hi⟩ |
        ⟨-, -, hi⟩
      · cases hi
      · rcases List.mem_cons.1 hmem with rfl | hmem
        · exact hi.symm
        · rw [houter] at hrest
          exact ih hrest hmem
      · cases hi
      · cases hi
      · cases hi

end WikiPress.Markup

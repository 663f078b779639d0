import WikiPress.Markup.Document
import WikiPress.Proofs.Markup.Shape

/-!
# WikiPress.Proofs.Markup.Trees

The events of a document have the shape of a document.

Design points:

* A stretch of a stream that may stand at a content and leads back to it can be repeated and
  put together (`Steady`). A container around a stretch is one again (`Steady.enclose`).
* The proof follows the trees. Running text may stand among blocks as well, in the items of
  tight lists, so what is said of it is said of both contents (`holdsText`).
-/

namespace WikiPress.Markup

/-- A stretch of a stream leads from a content back to it, whatever is open around. -/
def Steady (content : Content) (es : List Event) : Prop :=
  ∀ opened, Position.run ⟨content, opened⟩ es = some ⟨content, opened⟩

/-- Whether running text may stand at a content. -/
def Content.holdsText : Content → Bool
  | .flow | .inline => true
  | _ => false

variable {content inner : Content} {tag : Tag} {as bs es : List Event}

theorem Steady.nil : Steady content [] := fun _ => rfl

theorem Steady.append (has : Steady content as) (hbs : Steady content bs) :
    Steady content (as ++ bs) := by
  intro opened
  rw [Position.run_append, has opened, Option.bind_some, hbs opened]

theorem Steady.flatMap {α : Type} {f : α → List Event} {items : List α}
    (h : ∀ a ∈ items, Steady content (f a)) : Steady content (items.flatMap f) := by
  induction items with
  | nil => exact Steady.nil
  | cons a items ih =>
      rw [List.flatMap_cons]
      exact (h a List.mem_cons_self).append (ih fun a' ha => h a' (List.mem_cons_of_mem _ ha))

theorem Steady.leaf {e : Event} (hleaf : e.isLeaf = true) (hadmits : content.admits e = true) :
    Steady content [e] := by
  intro opened
  have hstep : Position.step ⟨content, opened⟩ e = some ⟨content, opened⟩ := by
    cases e with
    | opening tag => cases hleaf
    | closing c => cases hleaf
    | _ => exact if_pos hadmits
  rw [Position.run_cons, hstep]
  rfl

/-- A container leads to what may stand behind it, if its own events lead to where it may
end. -/
theorem run_enclose {last : Content} (hin : content.inside tag = some inner)
    (hlast : last.complete = true)
    (h : ∀ opened, Position.run ⟨inner, opened⟩ es = some ⟨last, opened⟩) (opened : List Opened) :
    Position.run ⟨content, opened⟩ (enclose tag es) = some ⟨content.after, opened⟩ := by
  have hopen : Position.step ⟨content, opened⟩ (.opening tag) =
      some ⟨inner, ⟨tag, content⟩ :: opened⟩ := by
    simp only [Position.step, hin, Option.map_some]
  have hclose : Position.step ⟨last, ⟨tag, content⟩ :: opened⟩ (.closing tag.closing) =
      some ⟨content.after, opened⟩ := by
    simp only [Position.step, hlast, Bool.true_and, decide_true, if_true]
  rw [enclose, List.cons_append, Position.run_cons, hopen, Option.bind_some, Position.run_append,
    h, Option.bind_some, Position.run_cons, hclose]
  rfl

theorem Steady.enclose (hin : content.inside tag = some inner) (hcomplete : inner.complete = true)
    (hafter : content.after = content) (h : Steady inner es) :
    Steady content (enclose tag es) := by
  intro opened
  rw [run_enclose hin hcomplete h, hafter]

/-! ## Running text -/

theorem inside_of_holdsText (h : content.holdsText = true) (htag : tag.isInline = true) :
    content.inside tag = some .inline ∧ content.after = content := by
  cases content with
  | flow => cases tag <;> first | exact ⟨rfl, rfl⟩ | cases htag
  | inline => exact ⟨if_pos htag, rfl⟩
  | _ => cases h

theorem admits_of_holdsText (h : content.holdsText = true) {e : Event}
    (he : Content.inline.admits e = true) : content.admits e = true := by
  cases content with
  | flow => rfl
  | inline => exact he
  | _ => cases h

/-- A part of running text around others. -/
theorem Steady.inline (h : content.holdsText = true) (htag : tag.isInline = true)
    (hbody : Steady .inline es) : Steady content (Markup.enclose tag es) := by
  obtain ⟨hin, hafter⟩ := inside_of_holdsText h htag
  exact Steady.enclose hin rfl hafter hbody

mutual

theorem steady_inline : ∀ (i : Inline) {content : Content}, content.holdsText = true →
    Steady content i.events
  | .text _, _, h | .code _, _, h | .html _, _, h => Steady.leaf rfl (admits_of_holdsText h rfl)
  | .softBreak, _, h | .hardBreak, _, h => Steady.leaf rfl (admits_of_holdsText h rfl)
  | .taskMarker _, _, h => Steady.leaf rfl (admits_of_holdsText h rfl)
  | .emphasis body, _, h | .strong body, _, h | .strikethrough body, _, h =>
      Steady.inline h rfl (steady_inlines body rfl)
  | .link _ _ _ body, _, h | .image _ _ body, _, h =>
      Steady.inline h rfl (steady_inlines body rfl)

theorem steady_inlines : ∀ (is : List Inline) {content : Content}, content.holdsText = true →
    Steady content (inlineEvents is)
  | [], _, _ => Steady.nil
  | i :: is, _, h => (steady_inline i h).append (steady_inlines is h)

end

/-! ## Blocks -/

/-- A block around what it holds. -/
theorem Steady.block (hin : Content.flow.inside tag = some inner)
    (hcomplete : inner.complete = true) (h : Steady inner es) :
    Steady .flow (Markup.enclose tag es) :=
  Steady.enclose hin hcomplete rfl h

section Tables

variable {α : Type} {f : α → List Event}

/-- The cells of a row, in a head or behind it. -/
theorem steady_cells (hin : content.inside .tableCell = some .inline)
    (hafter : content.after = content) {cells : List α}
    (h : ∀ cell ∈ cells, Steady .inline (f cell)) :
    Steady content (cells.flatMap fun cell => enclose .tableCell (f cell)) :=
  Steady.flatMap fun cell hcell => Steady.enclose hin rfl hafter (h cell hcell)

/-- A table is a head and then rows. -/
theorem steady_table (alignments : List ColumnAlignment) {head : List α} {rows : List (List α)}
    (hhead : ∀ cell ∈ head, Steady .inline (f cell))
    (hrows : ∀ row ∈ rows, ∀ cell ∈ row, Steady .inline (f cell)) :
    Steady .flow (enclose (.table alignments)
      (enclose .tableHead (head.flatMap fun cell => enclose .tableCell (f cell)) ++
        rows.flatMap fun row =>
          enclose .tableRow (row.flatMap fun cell => enclose .tableCell (f cell)))) := by
  have hfirst : ∀ opened, Position.run ⟨.table, opened⟩
      (enclose .tableHead (head.flatMap fun cell => enclose .tableCell (f cell))) =
      some ⟨.rows, opened⟩ := run_enclose rfl rfl (steady_cells rfl rfl hhead)
  have hothers : Steady .rows (rows.flatMap fun row =>
      enclose .tableRow (row.flatMap fun cell => enclose .tableCell (f cell))) :=
    Steady.flatMap fun row hrow =>
      Steady.enclose rfl rfl rfl (steady_cells rfl rfl (hrows row hrow))
  have hparts : ∀ opened, Position.run ⟨.table, opened⟩
      (enclose .tableHead (head.flatMap fun cell => enclose .tableCell (f cell)) ++
        rows.flatMap fun row =>
          enclose .tableRow (row.flatMap fun cell => enclose .tableCell (f cell))) =
      some ⟨.rows, opened⟩ := by
    intro opened
    rw [Position.run_append, hfirst, Option.bind_some, hothers]
  exact run_enclose rfl rfl hparts

end Tables

theorem steady_rawLine (line : RawLine) : Steady .raw line.events := by
  have hmarkup : Steady .raw [.html line.markup] := Steady.leaf rfl rfl
  unfold RawLine.events
  split
  · exact Steady.nil.append hmarkup
  · exact Steady.append (Steady.leaf rfl rfl) hmarkup

theorem steady_texts (lines : List String) : Steady .literal (lines.map .text) := by
  induction lines with
  | nil => exact Steady.nil
  | cons line lines ih =>
      have hline : Steady .literal [.text line] := Steady.leaf rfl rfl
      exact hline.append ih

mutual

theorem steady_block : ∀ b : Block (List Inline), Steady .flow b.events
  | .paragraph body | .heading _ _ body => Steady.block rfl rfl (steady_inlines body rfl)
  | .plain body => steady_inlines body rfl
  | .quote body => Steady.block rfl rfl (steady_blocks body)
  | .code _ lines => Steady.block rfl rfl (steady_texts lines)
  | .html _ => Steady.block rfl rfl (Steady.flatMap fun line _ => steady_rawLine line)
  | .list _ items => Steady.block rfl rfl (steady_items items)
  | .table alignments _ _ => steady_table alignments (fun cell _ => steady_inlines cell rfl)
      fun _ _ cell _ => steady_inlines cell rfl
  | .rule => Steady.leaf rfl rfl

theorem steady_blocks : ∀ bs : List (Block (List Inline)), Steady .flow (blockEvents bs)
  | [] => Steady.nil
  | b :: bs => (steady_block b).append (steady_blocks bs)

theorem steady_items : ∀ items : List (List (Block (List Inline))),
    Steady .flow (itemEvents items)
  | [] => Steady.nil
  | i :: is => (Steady.block rfl rfl (steady_blocks i)).append (steady_items is)

end

/-- **The events of a document have the shape of a document.** -/
theorem wellShaped_events (d : Document) : WellShaped d.events := steady_blocks d []

end WikiPress.Markup
